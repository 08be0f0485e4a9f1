import GatewayClient.Json.Decode

/-!
# Gateway events

What a session receives: a category, the index of the shard it came over and a payload.
-/

namespace GatewayClient

inductive ListenerCategory
  | messageCreate
  | messageEdit
  | messageDelete
  | serverJoin
  | serverLeave
  | userStatusChange
  | lostConnection
  | reconnect
  | resume
deriving DecidableEq, Repr

namespace ListenerCategory

def all : List ListenerCategory :=
  [messageCreate, messageEdit, messageDelete, serverJoin, serverLeave, userStatusChange,
   lostConnection, reconnect, resume]

/-- The place of a category in the order. -/
def rank : ListenerCategory → Nat
  | messageCreate => 0
  | messageEdit => 1
  | messageDelete => 2
  | serverJoin => 3
  | serverLeave => 4
  | userStatusChange => 5
  | lostConnection => 6
  | reconnect => 7
  | resume => 8

def display : ListenerCategory → String
  | messageCreate => "message_create"
  | messageEdit => "message_edit"
  | messageDelete => "message_delete"
  | serverJoin => "server_join"
  | serverLeave => "server_leave"
  | userStatusChange => "user_status_change"
  | lostConnection => "lost_connection"
  | reconnect => "reconnect"
  | resume => "resume"

def inspect : ListenerCategory → String
  | messageCreate => "MessageCreate"
  | messageEdit => "MessageEdit"
  | messageDelete => "MessageDelete"
  | serverJoin => "ServerJoin"
  | serverLeave => "ServerLeave"
  | userStatusChange => "UserStatusChange"
  | lostConnection => "LostConnection"
  | reconnect => "Reconnect"
  | resume => "Resume"

def variants : List (String × ListenerCategory) :=
  all.map fun c => (c.display, c)

def toJson (c : ListenerCategory) : Json := .str c.display

def ofJson : Json → Json.Decoded ListenerCategory := Json.decodeVariant variants

end ListenerCategory

structure GatewayEvent where
  category : ListenerCategory
  shard : UInt32
  payload : Json
deriving Repr

namespace GatewayEvent

/-- The text under a key of the payload. -/
def textField? (e : GatewayEvent) (key : String) : Option String :=
  (e.payload.get? key).bind Json.asString?

/-- The whole number of 64 bits under a key of the payload. -/
def intField? (e : GatewayEvent) (key : String) : Option Int :=
  (e.payload.get? key).bind Json.asInt64?

def toJson (e : GatewayEvent) : Json :=
  .obj [("category", e.category.toJson), ("payload", e.payload),
    ("shard", .ofInt e.shard.toNat)]

/-- An event under construction; the payload may be missing and is `null` then. -/
structure Draft where
  category : Option ListenerCategory := none
  shard : Option UInt32 := none
  payload : Json := .null

def fields : List (Json.Field Draft) :=
  [Json.field "category" ListenerCategory.ofJson fun a r => { r with category := some a },
   Json.field "shard" Json.decodeUInt32 fun a r => { r with shard := some a },
   Json.field "payload" Except.ok fun a r => { r with payload := a }]

def finish (layout : Json.Layout) (r : Draft) : Json.Decoded GatewayEvent := do
  let category ← Json.required "GatewayEvent" 3 layout "category" r.category
  let shard ← Json.required "GatewayEvent" 3 layout "shard" r.shard
  .ok ⟨category, shard, r.payload⟩

def ofJson : Json → Json.Decoded GatewayEvent :=
  Json.decodeRecord "GatewayEvent" fields {} finish

end GatewayEvent

end GatewayClient
