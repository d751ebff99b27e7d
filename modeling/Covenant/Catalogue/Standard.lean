import Covenant.Catalogue.Collection
import Covenant.Catalogue.Host
import Covenant.Catalogue.Remote
import Covenant.Catalogue.Value

/-!
# The catalogue of standard libraries

Every standard library by name.  The library of sets stands behind storage
sets and cannot be imported.
-/

namespace Covenant.Catalogue

def importable : List Library :=
  [callLibrary, runtimeLibrary, mathLibrary, tokenLibrary, nftLibrary, organizationLibrary,
    oracleLibrary, storageLibrary, contractLibrary, arrayLibrary, leaderboardLibrary,
    marketLibrary, accountLibrary, crowdsaleLibrary, stakeLibrary, governanceLibrary,
    relayLibrary, mailLibrary, timeLibrary, taskLibrary, uidLibrary, mapLibrary, listLibrary,
    stringLibrary, bytesLibrary, decimalLibrary, enumLibrary, addressLibrary, moduleLibrary,
    abiLibrary, formatLibrary]

def isImportable (name : String) : Bool :=
  importable.any fun library => library.name == name

def find? (name : String) : Option Library :=
  (importable ++ [setLibrary]).find? fun library => library.name == name

end Covenant.Catalogue
