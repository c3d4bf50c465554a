import DistanceVector.Advertisement
import DistanceVector.Encoding.Scalar
import DistanceVector.Json.Record

/-!
# The JSON form of packets

A packet is written as an object with one member, whose key says which kind of packet it is and
whose value is the record of its contents.

Main results:

* `Packet.ofForm?_form`, `OutboundPacket.ofForm?_form` — **each packet is read back from its form**.
-/

set_option relaxedAutoImplicit false
set_option autoImplicit false

namespace DistanceVector

open Json

namespace Packet

/-- The object with the one member that a packet is written as. -/
def tagged (kind : String) (contents : Json) : Json := record [(kind, contents)]

/-- The kind and the contents of a packet that is written like that. -/
def tagged? : Json → Option (String × Json)
  | .object [(key, contents)] => (decode? key).map fun kind => (String.ofList kind, contents)
  | _ => none

@[simp] theorem tagged?_tagged (kind : String) (contents : Json) :
    tagged? (tagged kind contents) = some (kind, contents) := by
  simp [tagged, tagged?, record]

/-- The fields of an update, in the order in which they are written. -/
def updateFields : List String := ["prefix", "urgent"]

/-- The fields of a request for a route. -/
def requestFields : List String := ["prefix"]

/-- The fields of a request for fresher news, in the order in which they are written. -/
def seqnoFields : List String := ["prefix", "origin", "seqno"]

/-- The JSON form of a packet. -/
def form : Packet → Json
  | .routeUpdate dest urgent =>
    tagged "RouteUpdate" (record <| updateFields.zip [toJson dest, toJson urgent])
  | .routeRequest dest => tagged "RouteRequest" (record <| requestFields.zip [toJson dest])
  | .seqnoRequest dest origin seqno =>
    tagged "SeqnoRequest"
      (record <| seqnoFields.zip [toJson dest, toJson origin, toJson seqno])

/-- The packet of a kind and its contents. -/
def ofContents? (contents : Json) : String → Option Packet
  | "RouteUpdate" => do
    let [dest, urgent] ← contents.record? updateFields | none
    return .routeUpdate (← dest.bind ofJson?) (← urgent.bind ofJson?)
  | "RouteRequest" => do
    let [dest] ← contents.record? requestFields | none
    return .routeRequest (← dest.bind ofJson?)
  | "SeqnoRequest" => do
    let [dest, origin, seqno] ← contents.record? seqnoFields | none
    return .seqnoRequest (← dest.bind ofJson?) (← origin.bind ofJson?) (← seqno.bind ofJson?)
  | _ => none

/-- The packet of a JSON form. -/
def ofForm? (j : Json) : Option Packet := (tagged? j).bind fun t => ofContents? t.2 t.1

@[simp] theorem ofForm?_form (p : Packet) : ofForm? p.form = some p := by
  cases p <;>
    simp only [form, ofForm?, tagged?_tagged, Option.bind_some, ofContents?] <;>
    rw [record?_zip (by decide) rfl] <;>
    simp

instance : Coded Packet := ⟨form, ofForm?⟩

instance : LawfulCoded Packet := ⟨ofForm?_form⟩

end Packet

namespace OutboundPacket

/-- The fields of an outgoing packet, in the order in which they are written. -/
def fieldNames : List String := ["neigh", "packet"]

/-- The JSON form of an outgoing packet. -/
def form (p : OutboundPacket) : Json := record <| fieldNames.zip [toJson p.neigh, toJson p.packet]

/-- The outgoing packet of a JSON form; one without a neighbour is sent to all. -/
def ofForm? (j : Json) : Option OutboundPacket := do
  let [neigh, packet] ← j.record? fieldNames | none
  return { neigh := ← neigh.elim (some none) ofJson?, packet := ← packet.bind ofJson? }

@[simp] theorem ofForm?_form (p : OutboundPacket) : ofForm? p.form = some p := by
  rw [form, ofForm?, record?_zip (by decide) rfl]
  simp

instance : Coded OutboundPacket := ⟨form, ofForm?⟩

instance : LawfulCoded OutboundPacket := ⟨ofForm?_form⟩

end OutboundPacket

end DistanceVector
