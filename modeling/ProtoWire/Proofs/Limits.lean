import ProtoWire.Proofs.Decoded
import ProtoWire.Proofs.Depth
import ProtoWire.Proofs.Nested

/-! # The recursion limit

A recursion limit only cuts: the result is that of every greater limit, or it is the error that
tells the limit. What was written is cut exactly where messages were written inside one another in a
chain longer than the limit.
-/

namespace ProtoWire

/-! ## Greater limits -/

namespace Catalog

open Reader

/-- Under a greater limit a body is read to the same result, unless the smaller one is exceeded. -/
theorem repeated_readBody (catalog : Catalog) (name : String) {reader : Reader} {limit own : Nat}
    (hlimit : own ≤ limit) (hown : reader.config.recursionLimit = own) (hbounded : Bounded reader) :
    Repeated limit (· = .recursionLimitExceeded own) (catalog.readBody name reader)
      (catalog.readBody name (reader.allowing limit)) := by
  -- A body inside has fewer bytes left, whatever the limits are.
  generalize hremaining : reader.remaining = remaining
  induction remaining using Nat.strong_induction_on generalizing reader name with
  | _ remaining ih =>
      have hallowing : Bounded (reader.allowing limit) :=
        ⟨hbounded.position_le, hbounded.nested, hbounded.inside⟩
      have hready : Ready own limit (· = .recursionLimitExceeded own) catalog.readBody
          catalog.readBody reader := by
        refine ⟨hbounded, hown, fun name inner hinner => ?_⟩
        have hless := hinner.remaining_lt
        rw [hremaining] at hless
        exact ih _ hless name (by rw [hinner.config_eq, hown]) hinner.bounded rfl
      rw [readBody_eq catalog name hbounded, readBody_eq catalog name hallowing]
      refine inStep_readBody catalog _ (balanced_catalogBody catalog) hlimit ?_ reader hready
      exact fun _ => rfl

theorem decode_or_exceeded (catalog : Catalog) (name : String) (bytes : Bytes)
    (config : ReaderConfig) {limit : Nat} (hlimit : config.recursionLimit ≤ limit) :
    catalog.decode name bytes config =
        catalog.decode name bytes { config with recursionLimit := limit } ∨
      catalog.decode name bytes config =
        .error (.recursionLimitExceeded config.recursionLimit) := by
  have hrepeated := repeated_readBody catalog name hlimit rfl (bounded_ofBytes bytes config)
  have hreader : (Reader.ofBytes bytes config).allowing limit =
      .ofBytes bytes { config with recursionLimit := limit } := rfl
  rw [hreader] at hrepeated
  unfold decode decodeWith
  cases hread : catalog.readBody name (.ofBytes bytes config) with
  | ok message after =>
      rw [hread] at hrepeated
      rw [show catalog.readBody name _ = _ from hrepeated]
      exact .inl rfl
  | error error after =>
      rw [hread] at hrepeated
      rcases hrepeated with rfl | hrepeated
      · exact .inr rfl
      · rw [hrepeated]
        exact .inl rfl

end Catalog

/-! ## Chains of messages -/

/-- A value is a message of a message type, perhaps one that might be absent or that is held in a
reference. -/
inductive Value.Wraps : ValueType → Value → String → Message → Prop
  | message (name : String) (message : Message) :
      Value.Wraps (.message name) (.message message) name message
  | present (inner : ValueType) (value : Value) (name : String) (message : Message)
      (hvalue : Value.Wraps inner value name message) :
      Value.Wraps (.option inner) (.present value) name message
  | reference (converter : String) (wire : ValueType) (held : HeldForm) (value : Value)
      (name : String) (message : Message) (hvalue : Value.Wraps wire value name message) :
      Value.Wraps (.converted converter wire) (.reference held value) name message

/-- A message is written as a value of an entry: as its only value unless that is left out, as one
of its elements, as a value of its map or as the member that was chosen. -/
inductive Content.Writes (catalog : Catalog) : Entry → Content → String → Message → Prop
  | singular (label : String) (number : UInt32) (type : ValueType) (optional nonNull : Bool)
      (value : Value) (name : String) (message : Message)
      (hwritten : (nonNull || !value.isOmitted catalog type) = true)
      (hvalue : value.Wraps type name message) :
      Content.Writes catalog (.singular label number type optional nonNull) (.singular value) name
        message
  | repeated (label : String) (number : UInt32) (element : ValueType) (packed : Option Bool)
      (values : List Value) (value : Value) (name : String) (message : Message)
      (hmember : value ∈ values) (hvalue : value.Wraps element name message) :
      Content.Writes catalog (.repeated label number element packed) (.repeated values) name message
  | mapping (label : String) (number : UInt32) (key : ScalarType) (type : ValueType)
      (order : MapOrder) (entries : List (Scalar × Value)) (entry : Scalar × Value) (name : String)
      (message : Message) (hmember : entry ∈ entries) (hvalue : entry.2.Wraps type name message) :
      Content.Writes catalog (.map label number key type order) (.mapping entries) name message
  | chosen (label : String) (schema : OneofSchema) (required : Bool) (place : Nat) (member : Member)
      (value : Value) (name : String) (message : Message)
      (hmember : schema.members[place]? = some member)
      (hvalue : value.Wraps member.type name message) :
      Content.Writes catalog (.oneof label schema required) (.chosen place value) name message

/-- Messages each of which is written directly inside the one before, the first one directly inside
the given message. -/
inductive Message.Chain (catalog : Catalog) : MessageSchema → Message → List Message → Prop
  | nil (schema : MessageSchema) (message : Message) : Message.Chain catalog schema message []
  | cons (schema : MessageSchema) (message : Message) (pair : Entry × Content) (name : String)
      (inner : Message) (chain : List Message)
      (hpair : pair ∈ schema.entries.zip message.contents)
      (hwrites : pair.2.Writes catalog pair.1 name inner)
      (hchain : Message.Chain catalog (catalog.schema name) inner chain) :
      Message.Chain catalog schema message (inner :: chain)

section Chains

variable {catalog : Catalog}

theorem Value.Wraps.depth_lt {type : ValueType} {value : Value} {name : String} {message : Message}
    (hvalue : value.Wraps type name message) :
    message.depth catalog (catalog.schema name) < value.depth catalog type := by
  induction hvalue with
  | message name message => exact Nat.lt_succ_self _
  | present inner value name message _ ih => exact ih
  | reference converter wire held value name message _ ih => exact ih

theorem Content.Writes.depth_lt {entry : Entry} {content : Content} {name : String}
    {message : Message} (hwrites : content.Writes catalog entry name message) :
    message.depth catalog (catalog.schema name) < content.depth catalog entry := by
  cases hwrites with
  | singular label number type optional nonNull value _ _ hwritten hvalue =>
      rw [Content.depth, if_pos hwritten]
      exact hvalue.depth_lt
  | repeated label number element packed values value _ _ hmember hvalue =>
      exact hvalue.depth_lt.trans_le (depth_le_valuesDepth hmember)
  | mapping label number key type order entries entry _ _ hmember hvalue =>
      exact hvalue.depth_lt.trans_le (depth_le_entriesDepth hmember)
  | chosen label schema required place member value _ _ hmember hvalue =>
      rw [Content.depth, hmember]
      exact hvalue.depth_lt

/-- No chain is longer than a message is deep. -/
theorem Message.Chain.length_le {schema : MessageSchema} {message : Message} {chain : List Message}
    (hchain : message.Chain catalog schema chain) :
    chain.length ≤ message.depth catalog schema := by
  induction hchain with
  | nil schema message => exact Nat.zero_le _
  | cons schema message pair name inner chain hpair hwrites _ ih =>
      obtain ⟨contents, unknown, cache⟩ := message
      exact (Nat.succ_le_succ ih).trans (hwrites.depth_lt.trans_le (depth_le_contentsDepth hpair))

/-- A message is as deep as the chains in it are long. -/
theorem inherits_chain :
    Inherits catalog (fun _ _ => True)
      (fun type value => ∀ levels, (∀ name inner chain, value.Wraps type name inner →
        inner.Chain catalog (catalog.schema name) chain → chain.length < levels) →
          value.depth catalog type ≤ levels)
      (fun schema message => ∀ levels, (∀ chain, message.Chain catalog schema chain →
        chain.length ≤ levels) → message.depth catalog schema ≤ levels)
      (fun entries contents => ∀ levels, (∀ pair ∈ entries.zip contents, ∀ name inner chain,
        pair.2.Writes catalog pair.1 name inner →
          inner.Chain catalog (catalog.schema name) chain → chain.length < levels) →
            contentsDepth catalog entries contents ≤ levels)
      (fun entry content => ∀ levels, (∀ name inner chain, content.Writes catalog entry name inner →
        inner.Chain catalog (catalog.schema name) chain → chain.length < levels) →
          content.depth catalog entry ≤ levels) where
  scalar type scalar _ levels _ := Nat.zero_le levels
  enumeration schema value levels _ := Nat.zero_le levels
  message name message hmessage levels hchains := by
    -- With nothing nested in it, the message is a chain of its own, which takes a level.
    have hpositive := hchains name message [] (.message name message) (.nil _ _)
    obtain ⟨below, rfl⟩ := Nat.exists_eq_succ_of_ne_zero hpositive.ne'
    refine Nat.succ_le_succ (hmessage below fun chain hchain => ?_)
    exact Nat.le_of_lt_succ (hchains name message chain (.message name message) hchain)
  absent inner levels _ := Nat.zero_le levels
  present inner value hvalue levels hchains :=
    hvalue levels fun name message chain hwraps => hchains name message chain (.present _ _ _ _ hwraps)
  reference converter wire held value hvalue levels hchains :=
    hvalue levels fun name message chain hwraps =>
      hchains name message chain (.reference _ _ _ _ _ _ hwraps)
  body schema contents unknown cache _ _ hcontents levels hchains :=
    hcontents levels fun pair hpair name inner chain hwrites hchain =>
      hchains (inner :: chain) (.cons _ _ pair name inner chain hpair hwrites hchain)
  nil levels _ := Nat.zero_le levels
  cons entry content entries contents hcontent hcontents levels hchains := by
    rw [List.zip_cons_cons] at hchains
    exact max_le (hcontent levels (hchains (entry, content) List.mem_cons_self))
      (hcontents levels fun pair hpair => hchains pair (List.mem_cons_of_mem _ hpair))
  singular label number type optional nonNull value _ hvalue levels hchains := by
    rw [Content.depth]
    split
    next hwritten =>
      exact hvalue levels fun name inner chain hwraps =>
        hchains name inner chain (.singular _ _ _ _ _ _ _ _ hwritten hwraps)
    next => exact Nat.zero_le levels
  repeated label number element packed values hvalues levels hchains :=
    valuesDepth_le fun value hmember => hvalues value hmember levels fun name inner chain hwraps =>
      hchains name inner chain (.repeated _ _ _ _ _ _ _ _ hmember hwraps)
  mapping label number key type order entries _ _ hvalues levels hchains :=
    entriesDepth_le fun entry hmember => hvalues entry hmember levels fun name inner chain hwraps =>
      hchains name inner chain (.mapping _ _ _ _ _ _ _ _ _ hmember hwraps)
  unset label schema levels _ := Nat.zero_le levels
  chosen label schema required place member value hmember hvalue levels hchains := by
    rw [Content.depth, hmember]
    exact hvalue levels fun name inner chain hwraps =>
      hchains name inner chain (.chosen _ _ _ _ _ _ _ _ hmember hwraps)

theorem Message.Conforms.depth_le_iff {holds : MessageSchema → Message → Prop}
    {schema : MessageSchema} {message : Message} (hmessage : message.Conforms catalog holds schema)
    (levels : Nat) :
    message.depth catalog schema ≤ levels ↔
      ∀ chain, message.Chain catalog schema chain → chain.length ≤ levels :=
  ⟨fun hdepth _ hchain => hchain.length_le.trans hdepth,
    inherits_chain.of_message (hmessage.mono fun _ _ _ => trivial) levels⟩

end Chains

namespace Catalog

/-- A recursion limit only cuts. Whatever the bytes, a smaller limit gives the result of a greater
one or the error that tells the smaller limit, and what is decoded under the smaller one is decoded
under the greater one. What was written is decoded exactly if there are levels enough for every chain
of messages that were written inside one another, be it in single fields, repeated fields, maps or
oneofs. -/
theorem limit_only_cuts (catalog : Catalog) (name : String) :
    (∀ (bytes : Bytes) (config : ReaderConfig) (limit : Nat), config.recursionLimit ≤ limit →
      (catalog.decode name bytes config =
          catalog.decode name bytes { config with recursionLimit := limit } ∨
        catalog.decode name bytes config =
          .error (.recursionLimitExceeded config.recursionLimit)) ∧
      ∀ message, catalog.decode name bytes config = .ok message →
        catalog.decode name bytes { config with recursionLimit := limit } = .ok message) ∧
    (catalog.Numbered → catalog.OptionsSingular → catalog.Defaulted → ∀ (message : Message),
      message.Conforms catalog (fun schema message => message.UnknownApart schema)
        (catalog.schema name) →
      ∀ pass : Nat, message.CachesUnused catalog (some pass) (catalog.schema name) →
        (catalog.encode name pass message).answer.length < addressSpace →
        ∀ (config : ReaderConfig) (again : Message),
          catalog.decode name (catalog.encode name pass message).answer config = .ok again ↔
            (∀ chain, message.Chain catalog (catalog.schema name) chain →
              chain.length ≤ config.recursionLimit) ∧
            again = message.asReceived catalog (catalog.schema name)) := by
  constructor
  · intro bytes config limit hlimit
    have hcut := decode_or_exceeded catalog name bytes config hlimit
    refine ⟨hcut, fun message hdecode => ?_⟩
    rcases hcut with hsame | hexceeded
    · exact hsame.symm.trans hdecode
    · rw [hexceeded] at hdecode
      cases hdecode
  · intro hnumbered hoptions hdefaulted message hmessage pass hunused hlength config again
    have hencode := hunused.encode_eq hnumbered hoptions
      (hmessage.mono fun _ _ hunknown => hunknown.numbered)
    rw [hencode] at hlength ⊢
    rw [decode_eq_ok_iff hnumbered, ← hmessage.depth_le_iff config.recursionLimit]
    exact hmessage.message_iff hnumbered hoptions hdefaulted hlength config.recursionLimit

/-- A chain through a map, a oneof and a repeated field needs a level for each. -/
theorem tree_cut_below_chain :
    let trees : Catalog := ⟨[("Tree", Samples.tree)]⟩
    let tree (kids : List (Scalar × Value)) (child : Content) (list : List Value) : Message :=
      .mk [.singular (.scalar (.string "")), .mapping kids, child, .repeated list] .empty .empty
    let leaf := tree [] .unset []
    let branch := tree [] .unset [.message leaf]
    let trunk := tree [] (.chosen 0 (.message branch)) []
    let root := tree [(.string "a", .message trunk)] .unset []
    let bytes := (trees.encode "Tree" 1 root).answer
    root.Chain trees (trees.schema "Tree") [trunk, branch, leaf] ∧
      trees.decode "Tree" bytes { recursionLimit := 3 } = .ok root ∧
      trees.decode "Tree" bytes { recursionLimit := 2 } = .error (.recursionLimitExceeded 2) := by
  intro trees tree leaf branch trunk root bytes
  have htree : ∀ (holds : MessageSchema → Message → Prop) (kids : List (Scalar × Value))
      (child : Content) (list : List Value), holds Samples.tree (tree kids child list) →
      (Content.mapping kids).Conforms trees holds
        (Samples.map "kids" 2 .string (.message "Tree")) →
      child.Conforms trees holds (.oneof "child" Samples.child false) →
      (∀ value ∈ list, value.Conforms trees holds (.message "Tree")) →
        (Value.message (tree kids child list)).Conforms trees holds (.message "Tree") := by
    intro holds kids child list hholds hkids hchild hlist
    exact .message "Tree" _ (.mk _ _ _ _ hholds (.cons _ _ _ _
      (.singular _ _ _ _ _ _ (.scalar _ _ rfl)) (.cons _ _ _ _ hkids (.cons _ _ _ _ hchild
        (.cons _ _ _ _ (.repeated _ _ _ _ _ hlist) .nil)))))
  have hroot : ∀ holds : MessageSchema → Message → Prop,
      (∀ kids child list, holds Samples.tree (tree kids child list)) →
        root.Conforms trees holds (trees.schema "Tree") := by
    intro holds hholds
    have hkids : (Content.mapping []).Conforms trees holds
        (Samples.map "kids" 2 .string (.message "Tree")) :=
      .mapping _ _ _ _ _ [] (fun _ => nofun) .nil (fun _ => nofun)
    have hleaf := htree holds [] .unset [] (hholds _ _ _) hkids (.unset _ _) fun _ => nofun
    have hbranch := htree holds [] .unset [.message leaf] (hholds _ _ _) hkids (.unset _ _)
      (List.forall_mem_singleton.mpr hleaf)
    have htrunk := htree holds [] (.chosen 0 (.message branch)) [] (hholds _ _ _) hkids
      (.chosen _ _ _ 0 ⟨"Left", 3, .message "Tree"⟩ _ rfl hbranch) fun _ => nofun
    cases htree holds [(.string "a", .message trunk)] .unset [] (hholds _ _ _)
      (.mapping _ _ _ _ _ _ (List.forall_mem_singleton.mpr rfl) (List.pairwise_singleton _ _)
        (List.forall_mem_singleton.mpr htrunk)) (.unset _ _) fun _ => nofun with
    | message _ _ hmessage => exact hmessage
  have happart := hroot (fun schema message => message.UnknownApart schema) fun _ _ _ =>
    unknownApart_empty
  obtain ⟨hcut, hchains⟩ := limit_only_cuts trees "Tree"
  have hiff := hchains (by decide) (by decide) (by decide) root happart 1 (hroot _ fun _ _ _ => rfl)
    (by decide +kernel)
  have hchain : root.Chain trees (trees.schema "Tree") [trunk, branch, leaf] := by
    have hleaf : leaf.Chain trees Samples.tree [] := .nil _ _
    have hbranch : branch.Chain trees Samples.tree [leaf] :=
      .cons _ _ (Samples.repeated "list" 5 (.message "Tree"), .repeated [.message leaf]) "Tree" leaf []
        (.tail _ (.tail _ (.tail _ (.head _))))
        (.repeated _ _ _ _ _ _ _ _ (.head _) (.message "Tree" leaf)) hleaf
    have htrunk : trunk.Chain trees Samples.tree [branch, leaf] :=
      .cons _ _ (.oneof "child" Samples.child false, .chosen 0 (.message branch)) "Tree" branch [leaf]
        (.tail _ (.tail _ (.head _)))
        (.chosen _ _ _ 0 ⟨"Left", 3, .message "Tree"⟩ _ _ _ rfl (.message "Tree" branch)) hbranch
    exact .cons _ _ (Samples.map "kids" 2 .string (.message "Tree"),
      .mapping [(.string "a", .message trunk)]) "Tree" trunk [branch, leaf] (.tail _ (.head _))
      (.mapping _ _ _ _ _ _ _ _ _ (.head _) (.message "Tree" trunk)) htrunk
  have hdecode : trees.decode "Tree" bytes { recursionLimit := 3 } = .ok root :=
    (hiff { recursionLimit := 3 } root).mpr ⟨(happart.depth_le_iff 3).mp (by decide), rfl⟩
  refine ⟨hchain, hdecode, ?_⟩
  -- What is decoded under the smaller limit would allow the chain no more than two levels.
  rcases (hcut bytes { recursionLimit := 2 } 3 (by decide)).1 with hsame | hexceeded
  · have hshort := ((hiff { recursionLimit := 2 } root).mp (hsame.trans hdecode)).1 _ hchain
    exact absurd hshort (by decide)
  · exact hexceeded

end Catalog

end ProtoWire
