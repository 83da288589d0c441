import Mathlib.Data.List.Forall2
import ProtoWire.Declaration.Error

/-! # Rules in order

A check goes through rules in a fixed order and reports the fault of the first one that is broken.
A check that follows another goes through its rules after those of the other, and a check of every
member of a list goes through the rules of one member after the other.
-/

namespace ProtoWire.Declaration

/-- What has to hold, and the fault that is reported if it does not. -/
structure Rule where
  holds : Prop
  fault : Fault

/-- All rules hold. -/
def Followed (rules : List Rule) : Prop := ∀ rule ∈ rules, rule.holds

/-- The fault is that of a broken rule, and all rules before it hold. -/
def FirstBroken (rules : List Rule) (fault : Fault) : Prop :=
  ∃ before rule after,
    rules = before ++ rule :: after ∧ Followed before ∧ ¬ rule.holds ∧ rule.fault = fault

section

variable {rule : Rule} {rules more : List Rule} {fault : Fault}

@[simp] theorem followed_nil : Followed [] := fun _ h => (List.not_mem_nil h).elim

@[simp] theorem followed_cons : Followed (rule :: rules) ↔ rule.holds ∧ Followed rules :=
  List.forall_mem_cons

@[simp] theorem followed_append : Followed (rules ++ more) ↔ Followed rules ∧ Followed more :=
  List.forall_mem_append

theorem followed_flatMap {α : Type} {list : List α} {rulesOf : α → List Rule} :
    Followed (list.flatMap rulesOf) ↔ ∀ member ∈ list, Followed (rulesOf member) := by
  simp only [Followed, List.mem_flatMap]
  exact ⟨fun h member hmember rule hrule => h rule ⟨member, hmember, hrule⟩,
    fun h rule ⟨member, hmember, hrule⟩ => h member hmember rule hrule⟩

@[simp] theorem not_firstBroken_nil : ¬ FirstBroken [] fault := by
  rintro ⟨before, rule, after, hsplit, -⟩
  exact List.append_ne_nil_of_right_ne_nil before (List.cons_ne_nil rule after) hsplit.symm

@[simp] theorem firstBroken_cons : FirstBroken (rule :: rules) fault ↔
    ¬ rule.holds ∧ rule.fault = fault ∨ rule.holds ∧ FirstBroken rules fault := by
  constructor
  · rintro ⟨before, broken, after, hsplit, hbefore, hbroken, hfault⟩
    cases before with
    | nil =>
        obtain ⟨rfl, -⟩ := List.cons.inj hsplit
        exact .inl ⟨hbroken, hfault⟩
    | cons first before =>
        obtain ⟨rfl, hrest⟩ := List.cons.inj hsplit
        obtain ⟨hfirst, hbefore⟩ := followed_cons.mp hbefore
        exact .inr ⟨hfirst, before, broken, after, hrest, hbefore, hbroken, hfault⟩
  · rintro (⟨hbroken, hfault⟩ | ⟨hholds, before, broken, after, hsplit, hbefore, hbroken, hfault⟩)
    · exact ⟨[], rule, rules, rfl, followed_nil, hbroken, hfault⟩
    · exact ⟨rule :: before, broken, after, congrArg (rule :: ·) hsplit,
        followed_cons.mpr ⟨hholds, hbefore⟩, hbroken, hfault⟩

theorem firstBroken_append : FirstBroken (rules ++ more) fault ↔
    FirstBroken rules fault ∨ Followed rules ∧ FirstBroken more fault := by
  induction rules with
  | nil => simp
  | cons rule rules ih =>
      rw [List.cons_append, firstBroken_cons, ih, firstBroken_cons, followed_cons]
      tauto

/-- Either all rules hold or one of them is the first that is broken. -/
theorem followed_iff : Followed rules ↔ ∀ fault, ¬ FirstBroken rules fault := by
  induction rules with
  | nil => simp
  | cons rule rules ih =>
      rw [followed_cons, ih]
      by_cases hholds : rule.holds
      · simp [hholds]
      · simp [hholds]

end

/-! ## Checks -/

variable {α β γ : Type}

/-- The check reports the first rule that is broken, and only that. -/
def Enforces (check : Except Fault α) (rules : List Rule) : Prop :=
  ∀ fault, check = .error fault ↔ FirstBroken rules fault

namespace Enforces

variable {check : Except Fault α} {rules more : List Rule}

/-- A check is passed exactly if all rules hold. -/
theorem ok_iff (hcheck : Enforces check rules) :
    (∃ value, check = .ok value) ↔ Followed rules := by
  rw [followed_iff]
  cases check with
  | ok value =>
      exact iff_of_true ⟨value, rfl⟩ fun fault hbroken => nomatch (hcheck fault).mpr hbroken
  | error fault =>
      exact iff_of_false (fun ⟨_, h⟩ => nomatch h) fun h => h fault ((hcheck fault).mp rfl)

theorem followed (hcheck : Enforces check rules) {value : α} (hvalue : check = .ok value) :
    Followed rules :=
  hcheck.ok_iff.mp ⟨value, hvalue⟩

theorem ok (value : α) : Enforces (.ok value : Except Fault α) [] := fun _ =>
  iff_of_false nofun not_firstBroken_nil

/-- The first rule is known to be broken. -/
theorem fail {holds : Prop} {fault : Fault} (hbroken : ¬ holds) :
    Enforces (.error fault : Except Fault α) (⟨holds, fault⟩ :: rules) := by
  intro reported
  rw [firstBroken_cons, Except.error.injEq]
  simp [hbroken]

/-- A rule that is tested before all else. -/
theorem guard {holds refused : Prop} [Decidable refused] {fault : Fault}
    (hrefused : refused ↔ ¬ holds) (hnext : holds → Enforces check rules) :
    Enforces (if refused then .error fault else check) (⟨holds, fault⟩ :: rules) := by
  intro reported
  rw [firstBroken_cons]
  by_cases hholds : holds
  · rw [if_neg (mt hrefused.mp (not_not_intro hholds)), hnext hholds reported]
    simp [hholds]
  · rw [if_pos (hrefused.mpr hholds), Except.error.injEq]
    simp [hholds]

/-- A rule that is known to hold need not be tested. -/
theorem skip {rule : Rule} (hholds : rule.holds) (hcheck : Enforces check rules) :
    Enforces check (rule :: rules) := by
  intro fault
  rw [firstBroken_cons, hcheck fault]
  simp [hholds]

/-- A check that goes on with the value of another one. -/
theorem bind {next : α → Except Fault β} (hcheck : Enforces check rules)
    (hnext : ∀ value, check = .ok value → Enforces (next value) more) :
    Enforces (check >>= next) (rules ++ more) := by
  intro fault
  rw [firstBroken_append]
  cases check with
  | error found =>
      have hnot : ¬ Followed rules := fun h => by
        obtain ⟨value, hvalue⟩ := hcheck.ok_iff.mpr h
        cases hvalue
      change (.error found : Except Fault β) = .error fault ↔ _
      rw [Except.error.injEq, ← hcheck fault, Except.error.injEq]
      simp only [hnot, false_and, or_false]
  | ok value =>
      have hnone : ¬ FirstBroken rules fault := fun h => nomatch (hcheck fault).mpr h
      change next value = .error fault ↔ _
      rw [hnext value rfl fault]
      simp only [hnone, hcheck.followed rfl, false_or, true_and]

/-- A check that makes something else of the value of another one. -/
theorem map (hcheck : Enforces check rules) (make : α → β) :
    Enforces (check >>= fun value => .ok (make value)) rules := by
  have hmade := hcheck.bind fun value _ => Enforces.ok (make value)
  rwa [List.append_nil] at hmade

/-- A check of every member of a list, where the rules are told by other members beside them. -/
theorem mapM_of_forall₂ {checkOf : β → Except Fault γ} {rulesOf : α → List Rule} {others : List α}
    {list : List β}
    (hchecks : List.Forall₂ (fun other member => Enforces (checkOf member) (rulesOf other))
      others list) : Enforces (list.mapM checkOf) (others.flatMap rulesOf) := by
  induction hchecks with
  | nil => exact Enforces.ok []
  | cons hfirst hrest ih =>
      rw [List.mapM_cons, List.flatMap_cons]
      exact hfirst.bind fun value _ => ih.map (value :: ·)

/-- A check of every member of a list. -/
theorem mapM {checkOf : α → Except Fault β} {rulesOf : α → List Rule} {list : List α}
    (hchecks : ∀ member ∈ list, Enforces (checkOf member) (rulesOf member)) :
    Enforces (list.mapM checkOf) (list.flatMap rulesOf) :=
  mapM_of_forall₂ (List.forall₂_same.mpr hchecks)

end Enforces

end ProtoWire.Declaration
