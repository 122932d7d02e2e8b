import AffineSwarm.Json.Printable
import AffineSwarm.Json.Record
import AffineSwarm.Ledger.Basic

/-!
# Ledger records in JSON

A record is an object of its fields in order, with the two tags in hexadecimal. Were there a
record that cannot be written, an empty object would stand for it.
-/

namespace AffineSwarm.AuditRecord

def toJson (r : AuditRecord) : Json :=
  .ofFields [("index", .ofNat r.index.toNat), ("timestamp", .ofInt r.timestamp.toInt),
    ("prev_hash", .ofText (Hex.text r.previous)), ("hmac", .ofText (Hex.text r.tag)),
    ("event_type", .ofText r.eventType), ("payload", .ofText r.payload)]

/-- A tag in hexadecimal, in either case. -/
def tag? (j : Json) : Option (List UInt8) := do
  let text ← j.string?
  let bytes ← (Hex.decode (Utf8.bytes text)).toOption
  if bytes.length = tagLength then some bytes else none

def fieldNames : List String :=
  ["index", "timestamp", "prev_hash", "hmac", "event_type", "payload"]

def ofJson? (j : Json) : Option AuditRecord := do
  let fields ← j.fields? fieldNames
  match fields with
  | [index, timestamp, previous, tag, eventType, payload] =>
    let index ← Reader.required (Json.unsigned? 64) index
    let timestamp ← Reader.required (Json.signed? 64) timestamp
    let previous ← Reader.required tag? previous
    let tag ← Reader.required tag? tag
    let eventType ← Reader.required Json.string? eventType
    let payload ← Reader.required Json.string? payload
    return ⟨UInt64.ofNat index, Int64.ofInt timestamp, previous, tag, eventType, payload⟩
  | _ => none

/-- An empty object, which stands for a record that cannot be written. -/
def noText : String := "\x7b\x7d"

/-- The text of a record. -/
def text (r : AuditRecord) : String := r.toJson.text?.getD noText

def parse? (text : String) : Option AuditRecord := Json.parse? text >>= ofJson?

end AffineSwarm.AuditRecord
