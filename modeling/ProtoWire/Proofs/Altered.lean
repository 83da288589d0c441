import ProtoWire.Message.Decode

/-! # Catalogs with changed message types

Much of what a message type declares has no part in reading it. Message types may be changed in such
parts, all of a catalog at once; where the defaults stay as they are and the body of every type is
read as before, so is every byte string.
-/

namespace ProtoWire

namespace Catalog

/-- The catalog with every message type changed. -/
def alter (change : MessageSchema → MessageSchema) (catalog : Catalog) : Catalog :=
  ⟨catalog.messages.map fun listed => (listed.1, change listed.2)⟩

variable {change : MessageSchema → MessageSchema}
  (hempty : ∀ name, change { name, entries := [] } = { name, entries := [] })
include hempty

theorem schema_alter (catalog : Catalog) (name : String) :
    (catalog.alter change).schema name = change (catalog.schema name) := by
  obtain ⟨messages⟩ := catalog
  simp only [schema, alter]
  induction messages with
  | nil => exact (hempty name).symm
  | cons listed messages ih =>
      rw [List.map_cons, List.lookup_cons, List.lookup_cons]
      cases name == listed.1 with
      | true => rfl
      | false => exact ih

section Defaults

variable (hdefault : ∀ (schema : MessageSchema) (message : String → Option Message),
  (change schema).entries.mapM (·.default? message) = schema.entries.mapM (·.default? message))
include hdefault

theorem defaultMessageWithin_alter (catalog : Catalog) (levels : Nat) (name : String) :
    (catalog.alter change).defaultMessageWithin? levels name =
      catalog.defaultMessageWithin? levels name := by
  induction levels generalizing name with
  | zero => rfl
  | succ levels ih =>
      rw [defaultMessageWithin?, defaultMessageWithin?, schema_alter hempty, funext ih, hdefault]

theorem default_alter (catalog : Catalog) (type : ValueType) :
    (catalog.alter change).default? type = catalog.default? type := by
  have hlength : (catalog.alter change).messages.length = catalog.messages.length :=
    List.length_map _
  rw [default?, default?]
  congr 1
  funext name
  rw [defaultMessage?, defaultMessage?, hlength, defaultMessageWithin_alter hempty hdefault]

end Defaults

/-- What is read body by body is decoded alike. -/
theorem decode_alter {catalog : Catalog}
    (hread : ∀ (schema : MessageSchema) (body : String → ReaderM Message),
      (change schema).readBody (catalog.alter change) body = schema.readBody catalog body)
    (name : String) (bytes : Bytes) (config : ReaderConfig) :
    (catalog.alter change).decode name bytes config = catalog.decode name bytes config := by
  have hbody : ∀ levels name,
      (catalog.alter change).readBodyWithin levels name = catalog.readBodyWithin levels name := by
    intro levels
    induction levels with
    | zero =>
        intro name
        rw [readBodyWithin, readBodyWithin, schema_alter hempty, hread]
    | succ levels ih =>
        intro name
        rw [readBodyWithin, readBodyWithin, schema_alter hempty, hread, funext ih]
  simp only [decode, decodeWith, readBody, hbody]

end Catalog

/-! ## What reading takes from a catalog -/

section Reading

variable {catalog other : Catalog} (hdefault : ∀ type, other.default? type = catalog.default? type)
include hdefault

theorem Entry.readRecord_of_defaults (body : String → ReaderM Message) (tag : UInt32)
    (entry : Entry) (slot : Option Content) :
    entry.readRecord other body tag slot = entry.readRecord catalog body tag slot := by
  cases entry with
  | map => simp only [Entry.readRecord, hdefault]
  | _ => rfl

theorem Entry.finish_of_defaults (entry : Entry) (slot : Option Content) :
    entry.finish other slot = entry.finish catalog slot := by
  cases entry with
  | singular => cases slot <;> simp only [Entry.finish, hdefault]
  | _ => cases slot <;> rfl

theorem finishEntries_of_defaults (entries : List Entry) (slots : List (Option Content)) :
    finishEntries other entries slots = finishEntries catalog entries slots := by
  induction entries generalizing slots with
  | nil => rfl
  | cons entry entries ih =>
      rw [finishEntries, finishEntries, Entry.finish_of_defaults hdefault, ih]

end Reading

end ProtoWire
