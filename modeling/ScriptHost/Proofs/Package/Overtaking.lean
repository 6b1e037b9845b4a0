import Mathlib.Data.List.Chain
import Mathlib.Data.List.Nodup
import Mathlib.Data.List.Sort
import Mathlib.Logic.Relation
import ScriptHost.Proofs.Package.Versions

/-!
# The latest version in any order

The latest version is found by going through the candidates: the one that is ahead is overtaken by
the next one unless it is greater. Which one is ahead in the end depends on the order. It may be
any that every other one is overtaken by, directly or through others: these can be put in a row in
which each overtakes the one before. Only a version that is greater than all others is ahead in the
end whatever the order.
-/

namespace ScriptHost

namespace Version

variable {α β : Type} {version : α → String} {candidates row : List α} {v w x : α}

/-- The candidate `w`, coming behind `v`, takes the lead. -/
def YieldsTo (version : α → String) (v w : α) : Prop := compare (version v) (version w) ≠ .gt

instance : DecidableRel (YieldsTo version) :=
  fun v w => inferInstanceAs (Decidable (compare (version v) (version w) ≠ .gt))

theorem yieldsTo_of_gt (h : compare (version v) (version w) = .gt) : YieldsTo version w v := by
  rw [YieldsTo, Std.OrientedCmp.gt_iff_lt.1 h]
  exact nofun

theorem YieldsTo.of_not (h : ¬ YieldsTo version v w) : YieldsTo version w v :=
  yieldsTo_of_gt (not_not.1 h)

/-- The candidate yields to one of these. -/
def YieldsAmong (version : α → String) (candidates : List α) (v w : α) : Prop :=
  YieldsTo version v w ∧ w ∈ candidates

/-- Every candidate is overtaken by this one, directly or through others of them. -/
structure Leads (version : α → String) (candidates : List α) (v : α) : Prop where
  mem : v ∈ candidates
  overtakes : ∀ w ∈ candidates, Relation.ReflTransGen (YieldsAmong version candidates) w v

theorem Leads.of_perm (h : Leads version candidates v) (hp : candidates.Perm row) :
    Leads version row v where
  mem := hp.mem_iff.1 h.mem
  overtakes w hw := by
    have hsub : YieldsAmong version candidates ≤ YieldsAmong version row :=
      fun _ _ hstep => ⟨hstep.1, hp.mem_iff.1 hstep.2⟩
    exact Relation.ReflTransGen.mono hsub w v (h.overtakes w (hp.mem_iff.2 hw))

/-! ## The one that is ahead in the end -/

theorem latest?_map (version : α → String) (name : β → α) (candidates : List β) :
    (latest? (fun b => version (name b)) candidates).map name =
      latest? version (candidates.map name) := by
  cases candidates with
  | nil => rfl
  | cons a rest =>
      induction rest generalizing a with
      | nil => rfl
      | cons b rest ih =>
          have hlater : name (later (fun b => version (name b)) a b) =
              later version (name a) (name b) := apply_ite name _ a b
          rw [List.map_cons, List.map_cons, latest?_cons_cons, latest?_cons_cons, ih, List.map_cons,
            hlater]

/-- By induction on the candidates that are still to come, for every one that is ahead so far. -/
theorem leads_of_latest? (h : latest? version candidates = some v) :
    Leads version candidates v := by
  have hrow : ∀ (row : List α) (a : α), a :: row ⊆ candidates →
      latest? version (a :: row) = some v →
      ∀ w ∈ a :: row, Relation.ReflTransGen (YieldsAmong version candidates) w v := by
    intro row
    induction row with
    | nil =>
        intro a _ ha w hw
        cases ha
        rw [List.mem_singleton.1 hw]
        exact .refl
    | cons b row ih =>
        intro a hsub ha
        obtain ⟨hmem, hmemb, hsub⟩ : a ∈ candidates ∧ b ∈ candidates ∧ row ⊆ candidates := by
          simpa only [List.cons_subset] using hsub
        rw [latest?_cons_cons, later] at ha
        split at ha
        · rename_i hgt
          obtain ⟨hahead, hrest⟩ :=
            List.forall_mem_cons.1 (ih a (List.cons_subset.2 ⟨hmem, hsub⟩) ha)
          exact List.forall_mem_cons.2 ⟨hahead, List.forall_mem_cons.2
            ⟨hahead.head ⟨yieldsTo_of_gt hgt, hmem⟩, hrest⟩⟩
        · rename_i hle
          obtain ⟨hahead, hrest⟩ :=
            List.forall_mem_cons.1 (ih b (List.cons_subset.2 ⟨hmemb, hsub⟩) ha)
          exact List.forall_mem_cons.2 ⟨hahead.head ⟨hle, hmemb⟩, List.forall_mem_cons.2
            ⟨hahead, hrest⟩⟩
  cases candidates with
  | nil => cases h
  | cons a rest => exact ⟨mem_of_latest? h, hrow rest a (List.Subset.refl _) h⟩

/-! ## Rows -/

/-- In a row in which each overtakes the one before, the last is ahead in the end. -/
theorem latest?_of_isChain (h : row.IsChain (YieldsTo version)) :
    latest? version row = row.getLast? := by
  cases row with
  | nil => rfl
  | cons a row =>
      induction row generalizing a with
      | nil => rfl
      | cons b row ih =>
          obtain ⟨hab, hrow⟩ := List.isChain_cons_cons.1 h
          have hlater : later version a b = b := if_neg hab
          rw [latest?_cons_cons, hlater, ih b hrow, List.getLast?_cons_cons]

/-- A candidate is put into the row before the first that overtakes it. -/
theorem isChain_orderedInsert (h : row.IsChain (YieldsTo version)) (v : α) :
    (row.orderedInsert (YieldsTo version) v).IsChain (YieldsTo version) := by
  induction row with
  | nil => exact .singleton v
  | cons a row ih =>
      by_cases hva : YieldsTo version v a
      · rw [List.orderedInsert_cons_of_le _ _ hva]
        exact .cons_cons hva h
      have hav : YieldsTo version a v := .of_not hva
      have hrow := ih h.tail
      rw [List.orderedInsert_of_not_le _ _ hva]
      cases row with
      | nil => exact .cons_cons hav hrow
      | cons b row =>
          by_cases hvb : YieldsTo version v b
          · rw [List.orderedInsert_cons_of_le _ _ hvb] at hrow ⊢
            exact .cons_cons hav hrow
          · rw [List.orderedInsert_of_not_le _ _ hvb] at hrow ⊢
            exact .cons_cons (List.isChain_cons_cons.1 h).1 hrow

/-- Where one of the row overtakes the candidate that is put into it, the last remains the last. -/
theorem getLast?_orderedInsert (hw : w ∈ row) (hvw : YieldsTo version v w) :
    (row.orderedInsert (YieldsTo version) v).getLast? = row.getLast? := by
  induction row with
  | nil => cases hw
  | cons a row ih =>
      by_cases hva : YieldsTo version v a
      · rw [List.orderedInsert_cons_of_le _ _ hva, List.getLast?_cons_cons]
      rcases List.mem_cons.1 hw with rfl | hw
      · exact absurd hvw hva
      have hlast := ih hw
      rw [List.orderedInsert_of_not_le _ _ hva]
      obtain ⟨b, rest, hrow⟩ := List.exists_cons_of_ne_nil (List.ne_nil_of_mem hw)
      obtain ⟨c, longer, hlonger⟩ := List.exists_cons_of_ne_nil
        (List.ne_nil_of_mem ((List.mem_orderedInsert (YieldsTo version)).2 (.inl rfl) :
          v ∈ row.orderedInsert (YieldsTo version) v))
      rw [hlonger] at hlast ⊢
      rw [hrow] at hlast ⊢
      rw [List.getLast?_cons_cons, List.getLast?_cons_cons, hlast]

/-- On the way from a candidate outside of a row to one in it, there is a step into the row. -/
theorem exists_step_into (h : Relation.ReflTransGen (YieldsAmong version candidates) x v)
    (hx : x ∈ candidates) (hout : x ∉ row) (hin : v ∈ row) :
    ∃ a b, a ∈ candidates ∧ a ∉ row ∧ b ∈ row ∧ YieldsTo version a b := by
  induction h using Relation.ReflTransGen.head_induction_on with
  | refl => exact absurd hin hout
  | @head x y hxy _ ih =>
      by_cases hy : y ∈ row
      · exact ⟨x, y, hx, hout, hy, hxy.1⟩
      · exact ih hxy.2 hy

/-- A candidate that leads is the last of a row of all candidates. The row grows by one after the
other, from the one that leads on. -/
theorem Leads.exists_row (h : Leads version candidates v) (hd : candidates.Nodup) :
    ∃ row : List α, row.Perm candidates ∧ row.IsChain (YieldsTo version) ∧
      row.getLast? = some v := by
  have hgrow : ∀ (missing : Nat) (row : List α), candidates.length = row.length + missing →
      row.Nodup → row ⊆ candidates → row.IsChain (YieldsTo version) → row.getLast? = some v →
      ∃ row : List α, row.Perm candidates ∧ row.IsChain (YieldsTo version) ∧
        row.getLast? = some v := by
    intro missing
    induction missing with
    | zero =>
        intro row hlength hnodup hsub hchain hlast
        exact ⟨row, (List.subperm_of_subset hnodup hsub).perm_of_length_le hlength.le, hchain,
          hlast⟩
    | succ missing ih =>
        intro row hlength hnodup hsub hchain hlast
        obtain ⟨x, hx, hout⟩ : ∃ x ∈ candidates, x ∉ row := by
          by_contra hall
          have hle := (List.subperm_of_subset hd fun x hx => by
            by_contra hout
            exact hall ⟨x, hx, hout⟩).length_le
          omega
        obtain ⟨a, b, ha, hanew, hb, hab⟩ :=
          exists_step_into (h.overtakes x hx) hx hout (List.mem_of_getLast? hlast)
        have hperm := List.perm_orderedInsert (YieldsTo version) a row
        refine ih (row.orderedInsert (YieldsTo version) a) ?_ ?_ ?_
          (isChain_orderedInsert hchain a) ?_
        · rw [hperm.length_eq, List.length_cons]
          omega
        · exact hperm.nodup_iff.2 (List.nodup_cons.2 ⟨hanew, hnodup⟩)
        · exact fun y hy => List.cons_subset.2 ⟨ha, hsub⟩ (hperm.mem_iff.1 hy)
        · rw [getLast?_orderedInsert hb hab, hlast]
  obtain ⟨n, hn⟩ := Nat.exists_eq_add_of_le (List.length_pos_of_mem h.mem)
  exact hgrow n [v] hn (List.nodup_singleton v) (List.cons_subset.2 ⟨h.mem, List.nil_subset _⟩)
    (.singleton v) rfl

/-- The candidates that are ahead in the end, in one order or another, are those that lead. -/
theorem leads_iff (hd : candidates.Nodup) :
    Leads version candidates v ↔
      ∃ row : List α, row.Perm candidates ∧ latest? version row = some v := by
  constructor
  · intro h
    obtain ⟨row, hperm, hchain, hlast⟩ := h.exists_row hd
    exact ⟨row, hperm, (latest?_of_isChain hchain).trans hlast⟩
  · rintro ⟨row, hperm, hlatest⟩
    exact (leads_of_latest? hlatest).of_perm hperm

/-! ## One candidate alone -/

/-- The candidate is greater than every other one. -/
def Surpasses (version : α → String) (candidates : List α) (v : α) : Prop :=
  ∀ w ∈ candidates, w ≠ v → compare (version v) (version w) = .gt

instance [DecidableEq α] : Decidable (Surpasses version candidates v) :=
  inferInstanceAs (Decidable (∀ w ∈ candidates, _))

theorem Surpasses.leads (h : Surpasses version candidates v) (hv : v ∈ candidates) :
    Leads version candidates v where
  mem := hv
  overtakes w hw := by
    by_cases heq : w = v
    · rw [heq]
    · exact .single ⟨yieldsTo_of_gt (h w hw heq), hv⟩

/-- Nothing overtakes a candidate that is greater than all others. -/
theorem Surpasses.eq_of_leads (h : Surpasses version candidates v) (hv : v ∈ candidates)
    (hw : Leads version candidates w) : w = v := by
  have hstays : ∀ w, Relation.ReflTransGen (YieldsAmong version candidates) v w → w = v := by
    intro w hvw
    induction hvw with
    | refl => rfl
    | tail _ hstep ih =>
        subst ih
        by_contra hne
        exact hstep.1 (h _ hstep.2 hne)
  exact hstays w (hw.overtakes v hv)

/-- A candidate that alone leads is greater than all others: one that it yields to would lead,
too. -/
theorem Leads.surpasses (h : Leads version candidates v)
    (honly : ∀ w, Leads version candidates w → w = v) : Surpasses version candidates v := by
  intro w hw hne
  by_contra hyields
  have hleads : Leads version candidates w :=
    ⟨hw, fun x hx => (h.overtakes x hx).tail ⟨hyields, hw⟩⟩
  exact hne (honly w hleads)

end Version

end ScriptHost
