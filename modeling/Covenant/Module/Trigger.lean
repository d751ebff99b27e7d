import Covenant.Token.Word
import Covenant.Ty.Basic

/-!
# Triggers

The host calls triggers on fixed occasions.  Which triggers a module may have
depends on its kind, and each trigger takes fixed parameters.
-/

namespace Covenant

inductive TriggerSet where
  | account
  | token
  | organization
deriving DecidableEq

namespace TriggerSet

def names : TriggerSet → List String
  | account =>
    ["onMint", "onBurn", "onSend", "onReceive", "onWitness", "onUpgrade", "onKill"]
  | token =>
    ["onMint", "onBurn", "onSend", "onReceive", "onInfuse", "onUpgrade", "onSeries",
      "onWrite", "onMigrate", "onKill"]
  | organization => ["onAdd", "onRemove"]

def contains (set : TriggerSet) (name : String) : Bool :=
  set.names.contains name

end TriggerSet

namespace Trigger

def signature? : String → Option (List Ty)
  | "onMint" | "onBurn" | "onSend" | "onReceive" | "onInfuse" =>
    some [.address, .address, .string, .number]
  | "onWitness" | "onUpgrade" | "onKill" | "onSeries" => some [.address]
  | "onMigrate" | "onAdd" | "onRemove" => some [.address, .address]
  | "onWrite" => some [.address, .number]
  | _ => none

/-- The full name of a trigger; `mint` is short for `onMint`. -/
def fullName (name : String) : String :=
  if Word.startsCamel "on" name then name else "on" ++ Word.capitalize name

end Trigger

end Covenant
