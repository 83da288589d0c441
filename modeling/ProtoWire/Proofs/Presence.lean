import ProtoWire.Proofs.RoundTrip

/-! # Empty options

An option may be empty, below any number of options and converters. A value without an empty option
is written as its payload and read back from it. Of any other value nothing is written, and nothing
is ever read as such a value.
-/

namespace ProtoWire

/-- Whether no option is empty, below any number of options and converters. -/
def Value.isPresent : Value → Bool
  | .absent => false
  | .present value => value.isPresent
  | .reference _ wire => wire.isPresent
  | _ => true

variable {catalog : Catalog} {type : ValueType} {value : Value}

/-- Nothing is ever read as a value with an empty option. -/
theorem ValueType.isPresent_of_read {body : String → ReaderM Message} {reader after : Reader}
    (hread : type.read body reader = .ok value after) : value.isPresent = true := by
  induction type generalizing value after with
  | scalar | enumeration | message =>
      obtain ⟨_, _, -, hmade⟩ := ok_of_bind hread
      cases hmade
      rfl
  | option inner ih | converted converter inner ih =>
      obtain ⟨held, _, hheld, hmade⟩ := ok_of_bind hread
      cases hmade
      have hpresent := ih hheld
      exact hpresent

namespace Value.Conforms

section Presence

variable {holds : MessageSchema → Message → Prop}

theorem isPresent_of_isPlain (hvalue : value.Conforms catalog holds type)
    (hplain : type.isPlain = true) : value.isPresent = true := by
  induction type generalizing value with
  | scalar | enumeration | message =>
      cases hvalue
      rfl
  | option => cases hplain
  | converted converter wire ih =>
      cases hvalue with
      | reference _ _ _ held hheld =>
          have hpresent := ih hheld hplain
          exact hpresent

theorem isPresent_rebuild (hvalue : value.Conforms catalog holds type) (rewriting : Rewriting) :
    (value.rebuild catalog rewriting type).isPresent = value.isPresent := by
  induction type generalizing value with
  | scalar | enumeration | message =>
      cases hvalue
      rfl
  | option inner ih =>
      cases hvalue with
      | absent => rfl
      | present _ held hheld => exact ih hheld
  | converted converter wire ih =>
      cases hvalue with
      | reference _ _ _ held hheld => exact ih hheld

/-- Of a value with an empty option nothing is written. -/
theorem nothing_written (hvalue : value.Conforms catalog holds type)
    (habsent : value.isPresent = false) (pass : Pass) :
    value.write catalog pass type = [] ∧ value.size catalog pass type = 0 := by
  induction type generalizing value with
  | scalar | enumeration | message =>
      cases hvalue
      cases habsent
  | option inner ih =>
      cases hvalue with
      | absent => exact ⟨rfl, rfl⟩
      | present _ held hheld => exact ih hheld habsent
  | converted converter wire ih =>
      cases hvalue with
      | reference _ _ _ held hheld => exact ih hheld habsent

end Presence

section Written

variable {pass : Pass} (hnumbered : catalog.Numbered) (hoptions : catalog.OptionsSingular)
  (hvalue : value.Conforms catalog (Message.Countable catalog pass) type)

include hnumbered hoptions hvalue

/-- A value without an empty option is written as its payload, options or not. -/
theorem exact (hpresent : value.isPresent = true) : value.Exact catalog pass type := by
  induction type generalizing value with
  | scalar | enumeration | message =>
      have hexact := (inherits_exact (catalog.declarable hnumbered hoptions)).of_value hvalue rfl
      exact hexact.2 (.inl rfl)
  | option inner ih =>
      cases hvalue with
      | absent => cases hpresent
      | present _ held hheld =>
          have hexact := ih hheld hpresent
          exact ⟨hexact.write_eq, hexact.size_eq, hexact.wireType_eq⟩
  | converted converter wire ih =>
      cases hvalue with
      | reference _ _ _ held hheld =>
          have hexact := ih hheld hpresent
          exact ⟨hexact.write_eq, hexact.size_eq, hexact.wireType_eq⟩

theorem length_write : (value.write catalog pass type).length = value.size catalog pass type := by
  cases hpresent : value.isPresent with
  | true =>
      have hexact := hvalue.exact hnumbered hoptions hpresent
      rw [hexact.write_eq, hexact.size_eq, UnknownValue.length_encode]
  | false =>
      obtain ⟨hwrite, hsize⟩ := hvalue.nothing_written hpresent pass
      rw [hwrite, hsize, List.length_nil]

end Written

/-- A value without an empty option is read back from its payload, options or not. -/
theorem restored (hnumbered : catalog.Numbered) (hoptions : catalog.OptionsSingular)
    (hdefaulted : catalog.Defaulted)
    (hvalue : value.Conforms catalog (fun schema message => message.UnknownApart schema) type)
    (hpresent : value.isPresent = true) : value.Restored catalog type := by
  induction type generalizing value with
  | scalar | enumeration | message =>
      have hrestorable := catalog.restorable hnumbered hoptions hdefaulted
      exact (inherits_restored hrestorable).of_value hvalue rfl (.inl rfl)
  | option inner ih =>
      cases hvalue with
      | absent => cases hpresent
      | present _ held hheld =>
          have hrestored := ih hheld hpresent
          exact ⟨hrestored.wireType_eq, fun levels hlevels hsize =>
            congrArg (Option.map Value.present) (hrestored.interpret_eq levels hlevels hsize)⟩
  | converted converter wire ih =>
      cases hvalue with
      | reference _ _ _ held hheld => exact (ih hheld hpresent).reference

end Value.Conforms

end ProtoWire
