import Relay.Json.Basic

/-!
# The store of an invocation

While a node runs a list of actions it keeps named JSON values in a store. An absent entry and an
entry that holds null are different things, though both show as the empty text.
-/

namespace Relay

/-- Named JSON values in ascending order of their names. -/
abbrev Store := Dict Json

namespace Store

/-- The store with an entry for the key: the present one, or null if there was none. -/
def ensure (store : Store) (key : String) : Store :=
  if store.contains key then store else store.insert key .null

/-- The value under a key of the store, null if there is none. -/
def slot (store : Store) (key : String) : Json :=
  (store.get? key).getD .null

/-- Replace the value of an entry that is present. -/
def update? (store : Store) (key : String) (value : Json) : Option Store :=
  if store.contains key then some (store.insert key value) else none

/-- The store as one JSON object. -/
def toJson (store : Store) : Json :=
  .object store.entries

end Store

end Relay
