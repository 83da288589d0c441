import Mathlib.Data.List.Forall2

/-! # Reading and searching lists

A reader that may fail is run on every member of a list. It reads the list if it reads every member,
and what it reads stands in the places of what it was read from. A search ends at the first member
that fits, which is any that fits if only one does.
-/

namespace ProtoWire

variable {α β γ : Type}

/-- A reader that succeeds on every member of a list reads the list. -/
theorem mapM_eq_map {read : α → Option β} {result : α → β} {list : List α}
    (hread : ∀ member ∈ list, read member = some (result member)) :
    list.mapM read = some (list.map result) := by
  induction list with
  | nil => rfl
  | cons member list ih =>
      rw [List.mapM_cons, hread member List.mem_cons_self,
        ih fun other hother => hread other (List.mem_cons_of_mem member hother)]
      rfl

/-- A reader that succeeds on every member of a list, each beside a result, reads the list. -/
theorem mapM_eq_map_zip {read : α → Option γ} {result : α × β → γ} {list : List α}
    {others : List β} (hlength : list.length = others.length)
    (hread : ∀ pair ∈ list.zip others, read pair.1 = some (result pair)) :
    list.mapM read = some ((list.zip others).map result) := by
  have hlist : list = (list.zip others).map Prod.fst := (List.map_fst_zip (Nat.le_of_eq hlength)).symm
  conv => lhs; rw [hlist]
  rw [List.mapM_map]
  exact mapM_eq_map hread

theorem forall_of_mapM {read : α → Option β} {holds : β → Prop} {list : List α}
    {results : List β} (hread : ∀ member ∈ list, ∀ result, read member = some result → holds result)
    (hresults : list.mapM read = some results) : ∀ result ∈ results, holds result := by
  induction list generalizing results with
  | nil =>
      cases hresults
      exact fun _ hresult => (List.not_mem_nil hresult).elim
  | cons member list ih =>
      simp only [List.mapM_cons, Option.bind_eq_bind, Option.bind_eq_some_iff] at hresults
      obtain ⟨first, hfirst, others, hothers, hmade⟩ := hresults
      cases hmade
      intro result hresult
      rcases List.mem_cons.mp hresult with rfl | hresult
      · exact hread member List.mem_cons_self result hfirst
      · exact ih (fun member hmember => hread member (List.mem_cons_of_mem _ hmember)) hothers
          result hresult

/-- What a list is read as stands beside what it was read from. -/
theorem zip_of_mapM {read : α → Option β} {list : List α} {results : List β}
    (hresults : list.mapM read = some results) :
    list.length = results.length ∧ ∀ pair ∈ list.zip results, read pair.1 = some pair.2 := by
  induction list generalizing results with
  | nil =>
      cases hresults
      exact ⟨rfl, fun _ hpair => (List.not_mem_nil hpair).elim⟩
  | cons member list ih =>
      simp only [List.mapM_cons, Option.bind_eq_bind, Option.bind_eq_some_iff] at hresults
      obtain ⟨first, hfirst, others, hothers, hmade⟩ := hresults
      cases hmade
      obtain ⟨hlength, hpairs⟩ := ih hothers
      refine ⟨congrArg Nat.succ hlength, fun pair hpair => ?_⟩
      rw [List.zip_cons_cons] at hpair
      rcases List.mem_cons.mp hpair with rfl | hpair
      · exact hfirst
      · exact hpairs pair hpair

/-- What the last member is read as stands last. -/
theorem getLast_of_mapM {read : α → Option β} {list : List α} {results : List β}
    (hresults : list.mapM read = some results) : results.getLast? = list.getLast?.bind read := by
  induction list generalizing results with
  | nil =>
      cases hresults
      rfl
  | cons member list ih =>
      simp only [List.mapM_cons, Option.bind_eq_bind, Option.bind_eq_some_iff] at hresults
      obtain ⟨first, hfirst, others, hothers, hmade⟩ := hresults
      cases hmade
      cases list with
      | nil =>
          cases hothers
          exact hfirst.symm
      | cons next list =>
          have hlast := ih hothers
          obtain ⟨hlength, -⟩ := zip_of_mapM hothers
          obtain ⟨other, others, rfl⟩ := List.exists_cons_of_length_eq_add_one hlength.symm
          rw [List.getLast?_cons_cons, List.getLast?_cons_cons, hlast]

/-- Where a member is read as something else, that stands in its place. -/
theorem mapM_set {read read' : α → Option β} {list : List α} {results : List β} {place : Nat}
    {member : α} {result : β} (hresults : list.mapM read = some results)
    (hmember : list[place]? = some member) (hread : read' member = some result)
    (hothers : ∀ place' other, list[place']? = some other → place' ≠ place →
      read' other = read other) :
    list.mapM read' = some (results.set place result) := by
  induction list generalizing results place with
  | nil => cases hmember
  | cons first list ih =>
      simp only [List.mapM_cons, Option.bind_eq_bind, Option.bind_eq_some_iff] at hresults
      obtain ⟨head, hhead, tail, htail, hmade⟩ := hresults
      cases hmade
      cases place with
      | zero =>
          cases hmember
          have hrest : list.mapM read' = some tail := by
            obtain ⟨hlength, hpairs⟩ := zip_of_mapM htail
            rw [mapM_eq_map_zip hlength fun pair hpair => ?_,
              List.map_snd_zip (Nat.le_of_eq hlength.symm)]
            obtain ⟨place', hplace'⟩ := List.mem_iff_getElem?.mp (List.of_mem_zip hpair).1
            rw [hothers (place' + 1) pair.1 hplace' (Nat.succ_ne_zero place')]
            exact hpairs pair hpair
          rw [List.mapM_cons, hread, hrest]
          rfl
      | succ place =>
          have hrest := ih htail hmember fun place' other hother hplace =>
            hothers (place' + 1) other hother fun h => hplace (Nat.succ.inj h)
          rw [List.mapM_cons, hothers 0 first rfl (Nat.succ_ne_zero place).symm, hhead, hrest]
          rfl

/-- What a list is read as, by a reader that may report an error, stands beside its members. -/
theorem forall₂_of_mapM_ok {ε : Type} {read : α → Except ε β} {list : List α} {results : List β}
    (hresults : list.mapM read = .ok results) :
    List.Forall₂ (fun member result => read member = .ok result) list results := by
  induction list generalizing results with
  | nil =>
      cases hresults
      exact .nil
  | cons member list ih =>
      rw [List.mapM_cons] at hresults
      cases hfirst : read member with
      | error error => rw [hfirst] at hresults; cases hresults
      | ok first =>
          cases hothers : list.mapM read with
          | error error => rw [hfirst, hothers] at hresults; cases hresults
          | ok others =>
              rw [hfirst, hothers] at hresults
              cases hresults
              exact .cons hfirst (ih hothers)

theorem exists_of_mapM_ok {ε : Type} {read : α → Except ε β} {list : List α} {results : List β}
    (hresults : list.mapM read = .ok results) :
    ∀ result ∈ results, ∃ member ∈ list, read member = .ok result := by
  have hread := forall₂_of_mapM_ok hresults
  clear hresults
  induction hread with
  | nil => exact fun _ hresult => (List.not_mem_nil hresult).elim
  | cons hfirst _ ih =>
      intro result hresult
      rcases List.mem_cons.mp hresult with rfl | hresult
      · exact ⟨_, List.mem_cons_self, hfirst⟩
      · obtain ⟨other, hother, hread⟩ := ih result hresult
        exact ⟨other, List.mem_cons_of_mem _ hother, hread⟩

theorem exists_of_forall₂ {related : α → β → Prop} {list : List α} {others : List β}
    (hlists : List.Forall₂ related list others) :
    ∀ member ∈ list, ∃ other, related member other :=
  ((List.forall₂_and_left list others).mp (hlists.imp fun _ other h => ⟨⟨other, h⟩, h⟩)).1

/-- Two lists look alike if their members do, each beside its own. -/
theorem map_eq_of_forall₂ {related : α → β → Prop} {list : List α} {others : List β}
    (hlists : List.Forall₂ related list others) {see : α → γ} {see' : β → γ}
    (hsame : ∀ member other, related member other → see member = see' other) :
    list.map see = others.map see' := by
  rw [← List.forall₂_eq_eq_eq]
  exact List.rel_map (fun member other => hsame member other) hlists

/-- The parts of the members of a list, told by other members beside them: some have one, the
others have none. -/
theorem flatMap_of_forall₂ {related : α → β → Prop} {list : List α} {others : List β}
    {part : β → List γ} {keeps : α → Bool} {told : α → List γ}
    (hrelated : List.Forall₂ related list others)
    (hpart : ∀ member other, related member other →
      part other = if keeps member then told member else []) :
    others.flatMap part = (list.filter keeps).flatMap told := by
  induction hrelated with
  | nil => rfl
  | @cons member other _ _ hfirst _ ih =>
      rw [List.flatMap_cons, ih, hpart member other hfirst]
      cases hkeeps : keeps member with
      | true => rw [List.filter_cons_of_pos hkeeps, List.flatMap_cons]; rfl
      | false => rw [List.filter_cons_of_neg (by simp [hkeeps])]; rfl

theorem filterMap_of_forall₂ {related : α → β → Prop} {list : List α} {others : List β}
    {part : β → Option γ} {keeps : α → Bool} {told : α → γ}
    (hrelated : List.Forall₂ related list others)
    (hpart : ∀ member other, related member other →
      part other = if keeps member then some (told member) else none) :
    others.filterMap part = (list.filter keeps).map told := by
  rw [List.filterMap_eq_flatMap_toList, List.map_eq_flatMap]
  refine flatMap_of_forall₂ hrelated fun member other hmember => ?_
  rw [hpart member other hmember]
  split <;> rfl

theorem forall₂_comp {first : α → β → Prop} {second : β → γ → Prop} {list : List α} {others : List β}
    {results : List γ} (hfirst : List.Forall₂ first list others)
    (hsecond : List.Forall₂ second others results) :
    List.Forall₂ (fun member result => ∃ other, first member other ∧ second other result)
      list results := by
  induction hfirst generalizing results with
  | nil =>
      cases hsecond
      exact .nil
  | cons hmember _ ih =>
      cases hsecond with
      | cons hother hrest => exact .cons ⟨_, hmember, hother⟩ (ih hrest)

/-- Members beside one another are at the same place. -/
theorem forall₂_zipIdx {related : α → β → Prop} {list : List α} {others : List β}
    (hrelated : List.Forall₂ related list others) (start : Nat) :
    List.Forall₂ (fun member other => related member.1 other.1 ∧ member.2 = other.2)
      (list.zipIdx start) (others.zipIdx start) := by
  induction hrelated generalizing start with
  | nil => exact .nil
  | cons hfirst _ ih => exact .cons ⟨hfirst, rfl⟩ (ih (start + 1))

/-- A list of at most one member is told by its last one. -/
theorem toList_getLast? {list : List α} (hlength : list.length ≤ 1) : list.getLast?.toList = list := by
  match list with
  | [] | [_] => rfl
  | _ :: _ :: _ => exact absurd hlength (by simp)

theorem exists_mapM {read : α → Option β} {list : List α}
    (hread : ∀ member ∈ list, ∃ result, read member = some result) :
    ∃ results, list.mapM read = some results := by
  induction list with
  | nil => exact ⟨[], rfl⟩
  | cons member list ih =>
      obtain ⟨result, hresult⟩ := hread member List.mem_cons_self
      obtain ⟨results, hresults⟩ := ih fun other hother =>
        hread other (List.mem_cons_of_mem member hother)
      exact ⟨result :: results, by rw [List.mapM_cons, hresult, hresults]; rfl⟩

theorem exists_mem_zip {list : List α} {results : List β}
    (hlength : list.length = results.length) {member : α} (hmember : member ∈ list) :
    ∃ result, (member, result) ∈ list.zip results := by
  rw [← List.map_fst_zip (Nat.le_of_eq hlength)] at hmember
  obtain ⟨pair, hpair, rfl⟩ := List.mem_map.mp hmember
  exact ⟨pair.2, hpair⟩

theorem length_le_flatMap (write : α → List β) {list : List α} {member : α}
    (hmember : member ∈ list) : (write member).length ≤ (list.flatMap write).length := by
  induction list with
  | nil => cases hmember
  | cons other list ih =>
      rw [List.flatMap_cons, List.length_append]
      rcases List.mem_cons.mp hmember with rfl | hmember
      · exact Nat.le_add_right _ _
      · exact Nat.le_trans (ih hmember) (Nat.le_add_left _ _)

/-- If only one member fits, it is the one that is found. -/
theorem find_eq_some_iff_of_unique {fits : α → Bool} {list : List α}
    (hunique : ∀ member ∈ list, ∀ other ∈ list, fits member = true → fits other = true →
      member = other) {member : α} :
    list.find? fits = some member ↔ member ∈ list ∧ fits member = true := by
  constructor
  · intro hfound
    exact ⟨List.mem_of_find?_eq_some hfound, List.find?_some hfound⟩
  · rintro ⟨hmember, hfits⟩
    cases hfound : list.find? fits with
    | none => exact absurd hfits (List.find?_eq_none.mp hfound member hmember)
    | some other =>
        have hother := List.mem_of_find?_eq_some hfound
        rw [hunique other hother member hmember (List.find?_some hfound) hfits]

theorem lookup_cons_eq_ite [BEq α] [LawfulBEq α] [DecidableEq α] (entry : α × β)
    (entries : List (α × β)) (other : α) :
    (entry :: entries).lookup other =
      if other = entry.1 then some entry.2 else entries.lookup other := by
  rw [List.lookup_cons]
  by_cases hsame : other = entry.1
  · rw [if_pos hsame, hsame, beq_self_eq_true]
  · rw [if_neg hsame, beq_false_of_ne hsame]

/-- What is set behind an entry of another key is set in the list. -/
theorem lookup_cons_of_set [BEq α] [LawfulBEq α] [DecidableEq α] {key held other : α}
    {kept value : β} {before after : List (α × β)} (hne : key ≠ held)
    (hset : after.lookup other = if other = key then some value else before.lookup other) :
    ((held, kept) :: after).lookup other =
      if other = key then some value else ((held, kept) :: before).lookup other := by
  rw [lookup_cons_eq_ite, lookup_cons_eq_ite, hset]
  by_cases hheld : other = held
  · rw [if_pos hheld, if_pos hheld, if_neg fun hkey => hne (hkey.symm.trans hheld)]
  · rw [if_neg hheld, if_neg hheld]

end ProtoWire
