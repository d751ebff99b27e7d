import Covenant.Catalogue.Entry

/-!
# Functions of the host

Libraries whose methods are functions of the host, and the operations on
modules and calls that are written out at the place of the call.
-/

namespace Covenant.Catalogue

def callLibrary : Library :=
  libraryOf "Call" [
    inline "interop" .callHost (.generic 0) [("method", .string)] |> typed (.explicit false),
    inline "contract" .callContract (.generic 0)
      [("contract", .string), ("method", .string)] |> typed (.explicit false),
    inline "method" .callMethod (.generic 0) [("method", .string)] |> typed (.explicit false)]

def runtimeLibrary : Library :=
  libraryOf "Runtime" [
    host "log" .none [("message", .string)],
    inline "expect" .expect .none [("condition", .bool), ("error", .string)],
    host "isWitness" .bool [("target", .address)],
    host "isTrigger" .bool [],
    host "transactionHash" .hash [],
    host "time" .timestamp [],
    host "isMinter" .bool [("target", .address), ("symbol", .string)],
    host "gasTarget" .address [],
    host "context" .string [],
    host "previousContext" .string [],
    host "version" .number [],
    host "getGovernanceValue" .number [("name", .string)] |> named "Nexus.GetGovernanceValue"]

def tokenLibrary : Library :=
  libraryOf "Token" [
    host "exists" .bool [("symbol", .string)] |> named "Runtime.TokenExists",
    host "getDecimals" .number [("symbol", .string)] |> named "Runtime.GetTokenDecimals",
    host "getFlags" .number [("symbol", .string)] |> named "Runtime.GetTokenFlags",
    host "transfer" .none
      [("from", .address), ("to", .address), ("symbol", .string), ("amount", .number)]
      |> named "Runtime.TransferTokens",
    host "transferAll" .none
      [("from", .address), ("to", .address), ("symbol", .string)]
      |> named "Runtime.TransferBalance",
    host "mint" .none
      [("from", .address), ("to", .address), ("symbol", .string), ("amount", .number)]
      |> named "Runtime.MintTokens",
    host "burn" .none
      [("from", .address), ("symbol", .string), ("amount", .number)]
      |> named "Runtime.BurnTokens",
    host "swap" .none
      [("targetChain", .string), ("source", .address), ("destination", .address),
        ("symbol", .string), ("amount", .number)] |> named "Runtime.SwapTokens",
    host "getBalance" .number
      [("from", .address), ("symbol", .string)] |> named "Runtime.GetBalance",
    host "isMinter" .bool
      [("address", .address), ("symbol", .string)] |> named "Runtime.IsMinter",
    host "getCurrentSupply" .number [("symbol", .string)] |> named "Runtime.GetTokenSupply"]

def nftLibrary : Library :=
  libraryOf "NFT" [
    host "transfer" .none
      [("from", .address), ("to", .address), ("symbol", .string), ("id", .number)]
      |> named "Runtime.TransferToken",
    host "mint" .number
      [("from", .address), ("to", .address), ("symbol", .string), ("rom", .any), ("ram", .any),
        ("seriesID", .number)] |> named "Runtime.MintToken",
    host "burn" .none
      [("from", .address), ("symbol", .string), ("id", .number)] |> named "Runtime.BurnToken",
    host "infuse" .none
      [("from", .address), ("symbol", .string), ("id", .number), ("infuseSymbol", .string),
        ("infuseValue", .number)] |> named "Runtime.InfuseToken",
    host "write" .none
      [("from", .address), ("symbol", .string), ("id", .number), ("ram", .any)]
      |> named "Runtime.WriteToken",
    inline "createSeries" .createSeries .none
      [("from", .address), ("symbol", .string), ("seriesID", .number), ("maxSupply", .number),
        ("mode", .number), ("nft", .moduleRef)] |> named "Nexus.CreateTokenSeries",
    inline "readROM" (.readToken "ROM") (.generic 0)
      [("symbol", .string), ("id", .number)]
      |> named "Runtime.ReadToken" |> typed (.explicit true),
    inline "readRAM" (.readToken "RAM") (.generic 0)
      [("symbol", .string), ("id", .number)]
      |> named "Runtime.ReadToken" |> typed (.explicit true)]

def organizationLibrary : Library :=
  libraryOf "Organization" [
    host "create" .none
      [("from", .address), ("id", .string), ("name", .string), ("script", .bytes)]
      |> named "Nexus.CreateOrganization",
    host "addMember" .none [("from", .address), ("name", .string), ("target", .address)],
    host "removeMember" .none [("from", .address), ("name", .string), ("target", .address)]]

/-- Data from outside the chain. -/
def oracleLibrary : Library :=
  libraryOf "Oracle" [
    host "read" .bytes [("url", .string)],
    host "price" .number [("symbol", .string)],
    host "quote" .number [("baseSymbol", .string), ("quoteSymbol", .string), ("amount", .number)]]

def storageLibrary : Library :=
  libraryOf "Storage" [
    inline "read" (.storage false true) (.generic 0)
      [("contract", .string), ("field", .string)] |> named "Data.Get" |> typed (.explicit true),
    host "write" .none [("field", .string), ("value", .any)] |> named "Data.Set",
    host "delete" .none [("field", .string)] |> named "Data.Delete"]

def contractLibrary : Library :=
  libraryOf "Contract" [
    host "exists" .bool [("name", .string)] |> named "Runtime.ContractExists",
    host "deploy" .none
      [("from", .address), ("name", .string), ("script", .bytes), ("abi", .bytes)]
      |> named "Runtime.DeployContract",
    host "upgrade" .none
      [("from", .address), ("name", .string), ("script", .bytes), ("abi", .bytes)]
      |> named "Runtime.UpgradeContract",
    host "kill" .none [("from", .address), ("name", .string)] |> named "Runtime.KillContract",
    host "getAddress" .address [("name", .string)] |> named "Runtime.GetContractAddress"]

def timeLibrary : Library :=
  libraryOf "Time" [
    host "now" .timestamp [] |> named "Runtime.Time",
    inline "unix" (.cast .timestamp) .timestamp [("value", .number)]]

/-- Tasks that the host repeats. -/
def taskLibrary : Library :=
  libraryOf "Task" [
    host "start" .task
      [("method", .method ""), ("from", .address), ("frequency", .number), ("mode", .number),
        ("gasLimit", .number)],
    host "stop" .none [("task", .task)],
    host "current" .task []]

def uidLibrary : Library :=
  libraryOf "UID" [
    host "generate" .number [] |> named "Runtime.GenerateUID"]

def moduleLibrary : Library :=
  libraryOf "Module" [
    inline "getScript" .moduleScript .bytes [("target", .moduleRef)],
    inline "getABI" .moduleInterface .bytes [("target", .moduleRef)]]

def abiLibrary : Library :=
  libraryOf "ABI" [
    host "hasMethod" .bool [("abi", .bytes), ("name", .string)],
    host "hasTrigger" .bool [("abi", .bytes), ("name", .string)]]

def formatLibrary : Library :=
  libraryOf "Format" [
    host "decimals" .string [("value", .number), ("symbol", .string)],
    host "symbol" .string [("symbol", .string)],
    host "account" .string [("target", .address)]]

end Covenant.Catalogue
