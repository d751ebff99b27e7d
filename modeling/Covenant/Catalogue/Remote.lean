import Covenant.Catalogue.Entry

/-!
# Methods of native contracts

Libraries whose methods belong to a contract that the chain provides.
-/

namespace Covenant.Catalogue

def leaderboardLibrary : Library :=
  libraryOfContract "Leaderboard" "ranking" [
    remote "create" .none
      [("from", .address), ("boardName", .string), ("capacity", .number)]
      |> named "CreateLeaderboard",
    remote "insert" .none
      [("from", .address), ("target", .address), ("boardName", .string), ("score", .number)]
      |> named "InsertScore",
    remote "getAddress" .address
      [("boardName", .string), ("index", .number)] |> named "GetAddressByIndex",
    remote "getScoreByIndex" .number [("boardName", .string), ("index", .number)],
    remote "getScoreByAddress" .number [("boardName", .string), ("target", .address)],
    remote "getSize" .number [("boardName", .string)],
    remote "reset" .none [("from", .address), ("boardName", .string)] |> named "ResetLeaderboard"]

def marketLibrary : Library :=
  libraryOfContract "Market" "market" [
    remote "sell" .none
      [("from", .address), ("baseSymbol", .string), ("quoteSymbol", .string),
        ("tokenID", .number), ("price", .number), ("endDate", .timestamp)] |> named "SellToken",
    remote "buy" .none
      [("from", .address), ("symbol", .string), ("tokenID", .number)] |> named "BuyToken",
    remote "cancel" .none [("symbol", .string), ("tokenID", .number)] |> named "CancelSale",
    remote "hasAuction" .bool [("symbol", .string), ("tokenID", .number)],
    remote "bid" .none
      [("from", .address), ("symbol", .string), ("tokenID", .number), ("price", .number),
        ("buyingFee", .number), ("buyingFeeAddress", .address)] |> named "BidToken"]

def accountLibrary : Library :=
  libraryOfContract "Account" "account" [
    remote "getName" .string [("target", .address)] |> named "LookUpAddress",
    remote "getLastActivity" .timestamp [("target", .address)],
    remote "registerName" .none [("target", .address), ("name", .string)],
    remote "unregisterName" .none [("target", .address)],
    remote "registerScript" .none [("target", .address), ("script", .bytes), ("abi", .bytes)],
    remote "hasScript" .bool [("address", .address)],
    remote "lookUpScript" .bytes [("address", .address)],
    remote "lookUpABI" .bytes [("address", .address)],
    remote "lookUpName" .address [("name", .string)],
    remote "migrate" .none [("from", .address), ("target", .address)]]

def crowdsaleLibrary : Library :=
  libraryOfContract "Crowdsale" "sale" [
    remote "create" .hash
      [("from", .address), ("name", .string), ("flags", .number), ("startDate", .timestamp),
        ("endDate", .timestamp), ("sellSymbol", .string), ("receiveSymbol", .string),
        ("price", .number), ("globalSoftCap", .number), ("globalHardCap", .number),
        ("userSoftCap", .number), ("userHardCap", .number)] |> named "CreateSale",
    remote "isSeller" .bool [("target", .address)],
    remote "isSaleActive" .bool [("saleHash", .hash)],
    remote "isWhitelisted" .bool [("saleHash", .hash), ("address", .address)],
    remote "addToWhitelist" .none [("saleHash", .hash), ("target", .address)],
    remote "removeFromWhitelist" .none [("saleHash", .hash), ("target", .address)],
    remote "getPurchasedAmount" .number [("saleHash", .hash), ("address", .address)],
    remote "getSoldAmount" .number [("saleHash", .hash)],
    remote "purchase" .none
      [("from", .address), ("saleHash", .hash), ("quoteSymbol", .string),
        ("quoteAmount", .number)],
    remote "closeSale" .none [("from", .address), ("saleHash", .hash)],
    remote "getLatestSaleHash" .hash []]

def stakeLibrary : Library :=
  libraryOfContract "Stake" "stake" [
    remote "getMasterThreshold" .number [],
    remote "isMaster" .bool [("address", .address)],
    remote "getMasterCount" .number [],
    remote "getMasterAddress" .address [("index", .number)],
    remote "getClaimMasterCount" .number [("claimDate", .timestamp)],
    remote "getMasterClaimDate" .timestamp [("claimDistance", .number)],
    remote "getMasterDate" .timestamp [("target", .address)],
    remote "getMasterRewards" .number [("address", .address)],
    remote "getLastMasterClaim" .timestamp [],
    remote "getUnclaimed" .number [("from", .address)],
    remote "getStake" .number [("address", .address)],
    remote "getStorageStake" .number [("address", .address)],
    remote "getStakeTimestamp" .timestamp [("from", .address)],
    remote "stake" .none [("from", .address), ("stakeAmount", .number)],
    remote "unstake" .none [("from", .address), ("unstakeAmount", .number)],
    remote "claim" .none [("from", .address), ("stakeAddress", .address)]]

/-- Values that the chain votes on. -/
def governanceLibrary : Library :=
  libraryOfContract "Governance" "governance" [
    remote "hasName" .bool [("name", .string)],
    remote "hasValue" .bool [("name", .string)],
    remote "getValue" .number [("name", .string)],
    remote "createValue" .none [("name", .string), ("initial", .number), ("constraints", .bytes)],
    remote "setValue" .none [("name", .string), ("value", .number)]]

def relayLibrary : Library :=
  libraryOfContract "Relay" "relay" [
    remote "getBalance" .number [("from", .address)],
    remote "getIndex" .number [("from", .address), ("to", .address)],
    remote "getTopUpAddress" .address [("from", .address)],
    remote "openChannel" .none [("from", .address), ("publicKey", .bytes)],
    remote "getKey" .bytes [("from", .address)],
    remote "topUpChannel" .none [("from", .address), ("count", .number)],
    remote "settleChannel" .none [("receipt", .bytes)]]

def mailLibrary : Library :=
  libraryOfContract "Mail" "mail" [
    remote "pushMessage" .none [("from", .address), ("target", .address), ("archiveHash", .hash)],
    remote "domainExists" .bool [("domainName", .string)],
    remote "registerDomain" .none [("from", .address), ("domainName", .string)],
    remote "unregisterDomain" .none [("domainName", .string)],
    remote "migrateDomain" .none [("domainName", .string), ("target", .address)],
    remote "joinDomain" .none [("from", .address), ("domainName", .string)],
    remote "leaveDomain" .none [("from", .address), ("domainName", .string)],
    remote "getUserDomain" .string [("target", .address)]]

end Covenant.Catalogue
