import GatewayClient.Json.Basic

/-!
# Deep merge

A layer of settings is merged over another one key by key. An object over an object keeps the keys
of both, merging where both have the key; a `null` entry of the upper layer counts as not given;
anything else replaces what lies below it.
-/

namespace GatewayClient.Json

mutual

/-- `merge target source` is `target` with `source` laid over it. -/
def merge : Json → Json → Json
  | .obj target, .obj source => .obj (mergeEntries target source)
  | _, source => source

/-- Lays entries over an object's entries, one after the other. -/
def mergeEntries (target : List (String × Json)) :
    List (String × Json) → List (String × Json)
  | [] => target
  | (_, .null) :: rest => mergeEntries target rest
  | (key, value) :: rest =>
    let merged :=
      match lookup key target with
      | some below => merge below value
      | none => value
    mergeEntries (insertEntry key merged target) rest

end

end GatewayClient.Json
