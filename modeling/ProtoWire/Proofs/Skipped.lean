import ProtoWire.Proofs.Consumed
import ProtoWire.Proofs.Known

/-! # Passing over records

The wire type in a tag frames the payload after it, whatever is done with the payload. Passing over
a record, capturing it and reading it as a value, as elements or as the entry of a map all end at
the same place, so a message type that keeps undeclared records and one that does not read the same.
-/

namespace ProtoWire

namespace Reader

variable {α : Type} {levels : Nat} {reader : Reader}

/-- Where the read succeeds, passing over the record of the tag instead ends at the same place. -/
def EndsAsSkipped (tag : UInt32) (read : ReaderM α) (reader : Reader) : Prop :=
  ∀ value after, read reader = .ok value after →
    ∃ skipped, skipField tag reader = .ok () skipped ∧ skipped.position = after.position

/-- What is made of a framed payload ends where the payload does. -/
theorem Answers.endsAsSkipped {read : ReaderM α} {number : UInt32} {wireType : WireType}
    {interpret : UnknownValue → Option α}
    (hanswers : Answers read reader (UnknownValue.cutAs wireType interpret reader.window))
    (hsound : Sound levels reader) (hnumber : Tag.inRange number = true) :
    EndsAsSkipped (Tag.make number wireType) read reader := by
  intro value after hread
  obtain ⟨rest, tag, houtcome, -, rfl⟩ := hanswers.of_ok hread
  obtain ⟨⟨payload, behind⟩, hcut, hvalue⟩ := Option.bind_eq_some_iff.mp houtcome
  obtain ⟨_, -, hpair⟩ := Option.map_eq_some_iff.mp hvalue
  cases hpair
  have hkey : Tag.split (Tag.make number wireType) = .ok ⟨number, wireType⟩ :=
    Tag.split_eq_ok_iff.mpr ⟨hnumber, rfl⟩
  have hskip := follows_skipField hkey reader hsound
  dsimp only at hskip
  rw [hcut] at hskip
  obtain ⟨-, tag', hskip⟩ := hskip
  exact ⟨_, hskip, rfl⟩

theorem skipField_of_readUnknown (tag : UInt32) (reader : Reader) :
    skipField tag reader =
      match readUnknown tag reader with
      | .ok _ after => .ok () after
      | .error error after => .error error after := by
  rw [skipField_eq, map_apply]
  cases readUnknown tag reader <;> rfl

section Typed

variable {catalog : Catalog} (hnumbered : catalog.Numbered) (hsound : Sound levels reader)
  {number : UInt32} (hnumber : Tag.inRange number = true)
include hnumbered hsound hnumber

theorem readValue_endsAsSkipped (type : ValueType) :
    EndsAsSkipped (Tag.make number type.wireType) (type.read catalog.readBody) reader :=
  have hanswers := follows_readValue (followsMessages_readBody hnumbered levels) type reader hsound
  hanswers.endsAsSkipped hsound hnumber

theorem readRepeated_endsAsSkipped {element : ValueType} {wireType : WireType}
    (hwire : wireType = element.wireType ∨ wireType = .len)
    (htag : reader.lastTag = Tag.make number wireType) :
    EndsAsSkipped (Tag.make number wireType)
      (readRepeated element.wireType (element.read catalog.readBody)) reader :=
  have hanswers := @answers_readElements _ _ _ (followsMessages_readBody hnumbered levels) element
    ⟨number, wireType⟩ reader hsound hnumber htag hwire
  hanswers.endsAsSkipped hsound hnumber

theorem readMapEntry_endsAsSkipped (key : ScalarType) (value : ValueType) (default : Value) :
    EndsAsSkipped (Tag.make number .len) (readMapEntry catalog.readBody key value default)
      reader :=
  have hanswers := follows_readMapEntry (followsMessages_readBody hnumbered levels) key value
    default reader hsound
  hanswers.endsAsSkipped hsound hnumber

end Typed

end Reader

namespace Catalog

open Reader

/-- Whatever is done with a record, it is framed alike. Capturing it and passing over it give the
same error or the same reader afterwards; a value, an occurrence of elements or the entry of a map
that is read ends where passing over it ends. So types that differ in keeping undeclared records
accept the same bytes, refuse others with the same errors and hold the same of what they declare,
also where such types are nested in themselves; and of two types over the same nested types, what
they declare holds the same undeclared records inside. -/
theorem framed_alike (catalog : Catalog) :
    (∀ tag reader, skipField tag reader =
      match readUnknown tag reader with
      | .ok _ after => .ok () after
      | .error error after => .error error after) ∧
    (catalog.Numbered → ∀ (reader : Reader) (number : UInt32),
      reader.position ≤ reader.limit → reader.limit ≤ reader.buffer.size →
      Tag.inRange number = true →
      (∀ type : ValueType,
        EndsAsSkipped (Tag.make number type.wireType) (type.read catalog.readBody) reader) ∧
      (∀ (element : ValueType) (wireType : WireType),
        wireType = element.wireType ∨ wireType = .len →
        reader.lastTag = Tag.make number wireType →
        EndsAsSkipped (Tag.make number wireType)
          (readRepeated element.wireType (element.read catalog.readBody)) reader) ∧
      ∀ key value default, EndsAsSkipped (Tag.make number .len)
        (readMapEntry catalog.readBody key value default) reader) ∧
    (∀ (other : Catalog) (name name' : String) (bytes : Bytes) (config : ReaderConfig),
      other.withoutUnknown = catalog.withoutUnknown →
      (catalog.schema name).entries = (catalog.schema name').entries →
      (catalog.decode name bytes config).map Message.known =
        (other.decode name' bytes config).map Message.known) ∧
    ∀ (name name' : String) (bytes : Bytes) (config : ReaderConfig),
      (catalog.schema name).entries = (catalog.schema name').entries →
      (catalog.decode name bytes config).map Message.contents =
        (catalog.decode name' bytes config).map Message.contents := by
  refine ⟨skipField_of_readUnknown, ?_, ?_, fun name name' bytes config hentries =>
    decode_contents hentries bytes config⟩
  · intro hnumbered reader number hposition hlimit hnumber
    have hsound : Sound (reader.config.recursionLimit - reader.depth) reader :=
      ⟨hposition, hlimit, rfl⟩
    exact ⟨readValue_endsAsSkipped hnumbered hsound hnumber,
      fun element wireType => readRepeated_endsAsSkipped hnumbered hsound hnumber,
      readMapEntry_endsAsSkipped hnumbered hsound hnumber⟩
  · intro other name name' bytes config hother hentries
    have hbare : (catalog.withoutUnknown.schema name).entries =
        (catalog.withoutUnknown.schema name').entries := by
      rw [schema_withoutUnknown, schema_withoutUnknown]
      exact hentries
    have hkeeps : (catalog.withoutUnknown.schema name).keepsUnknown =
        (catalog.withoutUnknown.schema name').keepsUnknown := by
      rw [schema_withoutUnknown, schema_withoutUnknown]
      rfl
    rw [← decode_known, ← decode_known, hother]
    exact decode_of_entries hbare hkeeps bytes config

/-- A tree in front of other bytes ends where it would if it were passed over. Undeclared records
of a tree inside are kept by a type that keeps none of its own, and lost where no type keeps them. -/
theorem tree_framed_alike :
    let trees : Catalog := ⟨[("Tree", Samples.tree), ("Bush", Samples.tree.withoutUnknown)]⟩
    let tree (list : List Value) (unknown : List UnknownField) : Message :=
      .mk [.singular (.scalar (.string "")), .mapping [], .unset, .repeated list] ⟨unknown⟩ .empty
    let reader : Reader := .ofBytes [2, 42, 0, 7] {}
    let record : UnknownField := ⟨6, .varint 7⟩
    trees.Numbered ∧
      (∃ skipped, skipField (Tag.make 5 .len) reader = .ok () skipped ∧ skipped.position = 3) ∧
      (trees.withoutUnknown.decode "Bush" [42, 2, 48, 7, 48, 7] {}).map Message.known =
        .ok (tree [.message (tree [] [])] []) ∧
      (trees.decode "Bush" [42, 2, 48, 7, 48, 7] {}).map Message.contents =
        .ok (tree [.message (tree [] [record])] [record]).contents := by
  intro trees tree reader record
  have hnumbered : trees.Numbered := by decide
  have hread : ValueType.read trees.readBody (.message "Tree") reader =
      .ok (.message (tree [.message (tree [] [])] [])) (reader.skip 3) := by
    cbv
  have hdecode : trees.decode "Tree" [42, 2, 48, 7, 48, 7] {} =
      .ok (tree [.message (tree [] [record])] [record]) := by
    cbv
  obtain ⟨-, hframed, hknown, hcontents⟩ := framed_alike trees
  refine ⟨hnumbered, ?_, ?_, ?_⟩
  · exact (hframed hnumbered reader 5 (by decide) (by decide) (by decide)).1 _ _ _ hread
  · have hsame : trees.withoutUnknown.withoutUnknown = trees.withoutUnknown := rfl
    rw [← hknown trees.withoutUnknown "Tree" "Bush" _ _ hsame rfl, hdecode]
    rfl
  · rw [hcontents "Bush" "Tree" _ _ rfl, hdecode]
    rfl

end Catalog

end ProtoWire
