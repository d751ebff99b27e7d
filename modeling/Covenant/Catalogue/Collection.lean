import Covenant.Catalogue.Entry

/-!
# Storage collections

The libraries behind the storage collections.  Their open types stand for the
key and value types of a collection: the first open type of a map is its key
and the second its value, the open type of a list or set is its value.
-/

namespace Covenant.Catalogue

def mapLibrary : Library :=
  libraryOf "Map" [
    inline "get" (.storage true true) (.generic 1)
      [("field", .string), ("key", .generic 0)] |> named "Map.Get",
    inline "set" (.storage false false) .none
      [("field", .string), ("key", .generic 0), ("value", .generic 1)] |> named "Map.Set",
    inline "remove" (.storage false false) .none
      [("field", .string), ("key", .generic 0)] |> named "Map.Remove",
    inline "clear" (.storage false false) .none [("field", .string)] |> named "Map.Clear",
    inline "count" (.storage true false) .number [("field", .string)] |> named "Map.Count",
    inline "has" (.storage true false) .bool
      [("field", .string), ("key", .generic 0)] |> named "Map.Has"]

def listLibrary : Library :=
  libraryOf "List" [
    inline "get" (.storage true true) (.generic 0)
      [("field", .string), ("index", .number)] |> named "List.Get",
    inline "add" (.storage false false) .none
      [("field", .string), ("value", .generic 0)] |> named "List.Add",
    inline "replace" (.storage false false) .none
      [("field", .string), ("index", .number), ("value", .generic 0)] |> named "List.Replace",
    inline "removeAt" (.storage false false) .none
      [("field", .string), ("index", .number)] |> named "List.RemoveAt",
    inline "count" (.storage true false) .number [("field", .string)] |> named "List.Count",
    inline "clear" (.storage false false) .none [("field", .string)] |> named "List.Clear"]

def setLibrary : Library :=
  libraryOf "Set" [
    inline "add" (.storage false false) .none
      [("field", .string), ("value", .generic 0)] |> named "Set.Add",
    inline "remove" (.storage false false) .none
      [("field", .string), ("value", .generic 0)] |> named "Set.Remove",
    inline "count" (.storage true false) .number [("field", .string)] |> named "Set.Count",
    inline "has" (.storage true false) .bool
      [("field", .string), ("value", .generic 0)] |> named "Set.Has",
    inline "clear" (.storage false false) .none [("field", .string)] |> named "Set.Clear"]

end Covenant.Catalogue
