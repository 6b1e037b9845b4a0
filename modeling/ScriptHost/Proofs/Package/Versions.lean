import Mathlib.Data.String.Basic
import Mathlib.Order.Compare
import ScriptHost.Proofs.Package.Names

/-!
# The order of versions

Two versions compare the same way from either side, and a version is equal to itself. Three
versions need not be in order. Two numbers compare by value and a number compares with a text
letter by letter, so a text may stand between two numbers that are equal or the other way
round: `01 < 0a < 1`, where `01` and `1` are the same number. That is the only way in which
the order is not transitive. Where it does not happen among the versions of a package, no
version of the package is greater than the one that is picked for the latest.
-/

namespace ScriptHost

namespace Version

/-! ## Parts -/

/-- A part that is read as a number. -/
def isNumber (part : List Char) : Bool := (Text.unsigned? part).isSome

variable {x y z : List Char}

theorem comparePart_of_numbers (hx : isNumber x = true) (hy : isNumber y = true) :
    comparePart x y = compareOn (fun part => (Text.unsigned? part).getD 0) x y := by
  obtain ⟨m, hm⟩ := Option.isSome_iff_exists.1 hx
  obtain ⟨n, hn⟩ := Option.isSome_iff_exists.1 hy
  rw [comparePart, compareOn, hm, hn]
  rfl

theorem comparePart_of_text (h : isNumber x = false ∨ isNumber y = false) :
    comparePart x y = compareOn String.ofList x y := by
  rw [comparePart]
  split
  · rename_i m n hm hn
    rw [isNumber, hm, isNumber, hn] at h
    simp at h
  · rfl

instance : Std.OrientedCmp comparePart where
  eq_swap {x y} := by
    by_cases hnumbers : isNumber x = true ∧ isNumber y = true
    · rw [comparePart_of_numbers hnumbers.1 hnumbers.2,
        comparePart_of_numbers hnumbers.2 hnumbers.1]
      exact Std.OrientedCmp.eq_swap
    · rw [not_and_or, Bool.not_eq_true, Bool.not_eq_true] at hnumbers
      rw [comparePart_of_text hnumbers, comparePart_of_text hnumbers.symm]
      exact Std.OrientedCmp.eq_swap

/-- A text and a number are never equal. -/
theorem comparePart_ne_eq (hx : isNumber x = false) (hy : isNumber y = true) :
    comparePart x y ≠ .eq := by
  intro heq
  rw [comparePart_of_text (.inl hx), compareOn] at heq
  have hsame : x = y := String.ofList_inj.1 (Std.LawfulEqCmp.eq_of_compare heq)
  rw [hsame, hy] at hx
  cases hx

/-- One transitive order compares the three parts. -/
def AreAlike (x y z : List Char) : Prop :=
  ∃ order : List Char → List Char → Ordering, Std.TransCmp order ∧
    comparePart x y = order x y ∧ comparePart y z = order y z ∧ comparePart x z = order x z

/-- Three parts are alike unless one of them is a text and the others are numbers. -/
theorem areAlike_or (x y z : List Char) :
    AreAlike x y z ∨
      (isNumber x = false ∧ isNumber y = true ∧ isNumber z = true) ∨
      (isNumber x = true ∧ isNumber y = false ∧ isNumber z = true) ∨
      (isNumber x = true ∧ isNumber y = true ∧ isNumber z = false) := by
  have hnumbers (hx : isNumber x = true) (hy : isNumber y = true) (hz : isNumber z = true) :
      AreAlike x y z :=
    ⟨_, inferInstance, comparePart_of_numbers hx hy, comparePart_of_numbers hy hz,
      comparePart_of_numbers hx hz⟩
  have htexts (hxy : isNumber x = false ∨ isNumber y = false)
      (hyz : isNumber y = false ∨ isNumber z = false)
      (hxz : isNumber x = false ∨ isNumber z = false) : AreAlike x y z :=
    ⟨_, inferInstance, comparePart_of_text hxy, comparePart_of_text hyz, comparePart_of_text hxz⟩
  cases hx : isNumber x <;> cases hy : isNumber y <;> cases hz : isNumber z <;> simp_all

/-- Parts that are alike and in ascending order: the first and the last differ, or all three are
equal. -/
theorem AreAlike.ascend (h : AreAlike x y z) (hxy : (comparePart x y).isLE = true)
    (hyz : (comparePart y z).isLE = true) :
    comparePart x z = .lt ∨
      comparePart x y = .eq ∧ comparePart y z = .eq ∧ comparePart x z = .eq := by
  obtain ⟨order, htrans, exy, eyz, exz⟩ := h
  rw [exy] at hxy ⊢
  rw [eyz] at hyz ⊢
  rw [exz]
  cases hfirst : order x y with
  | lt => exact .inl (Std.TransCmp.lt_of_lt_of_isLE hfirst hyz)
  | gt => rw [hfirst] at hxy; cases hxy
  | eq =>
      cases hsecond : order y z with
      | lt => exact .inl (Std.TransCmp.lt_of_isLE_of_lt hxy hsecond)
      | gt => rw [hsecond] at hyz; cases hyz
      | eq => exact .inr ⟨rfl, rfl, Std.TransCmp.eq_trans hfirst hsecond⟩

/-! ## Parts in a row -/

instance : Std.OrientedCmp compareParts where
  eq_swap {as bs} := by
    induction as generalizing bs with
    | nil => cases bs <;> rfl
    | cons a as ih =>
        cases bs with
        | nil => rfl
        | cons b bs =>
            rw [compareParts, compareParts, Ordering.swap_then, ← Std.OrientedCmp.eq_swap, ← ih]

/-- The version `text` is between `low` and `high`, which are not in this order: behind equal
parts it has a text where they have numbers. -/
def dividesParts : List (List Char) → List (List Char) → List (List Char) → Bool
  | t :: text, m :: low, n :: high =>
    if comparePart t m = .eq ∧ comparePart t n = .eq ∧ comparePart m n = .eq then
      dividesParts text low high
    else
      !isNumber t && isNumber m && isNumber n &&
        comparePart m t == .lt && comparePart t n == .lt &&
        (compareParts (n :: high) (m :: low)).isLE
  | _, _, _ => false

variable {text low high as bs cs : List (List Char)}

theorem dividesParts_of_eq (hxy : comparePart x y = .eq) (hxz : comparePart x z = .eq)
    (hyz : comparePart y z = .eq) :
    dividesParts (x :: text) (y :: low) (z :: high) = dividesParts text low high := by
  rw [dividesParts, if_pos ⟨hxy, hxz, hyz⟩]

theorem dividesParts_of_text (hx : isNumber x = false) (hy : isNumber y = true)
    (hz : isNumber z = true) (hyx : comparePart y x = .lt) (hxz : comparePart x z = .lt)
    (hle : (compareParts (z :: high) (y :: low)).isLE = true) :
    dividesParts (x :: text) (y :: low) (z :: high) = true := by
  rw [dividesParts, if_neg (by rw [hxz]; simp)]
  simp [hx, hy, hz, hyx, hxz, hle]

/-- What divides two versions is strictly between them, and they are the other way round. -/
theorem order_of_dividesParts (h : dividesParts text low high = true) :
    compareParts low text = .lt ∧ compareParts text high = .lt ∧
      (compareParts high low).isLE = true := by
  induction text generalizing low high with
  | nil => simp [dividesParts] at h
  | cons t text ih =>
      cases low with
      | nil => simp [dividesParts] at h
      | cons m low =>
          cases high with
          | nil => simp [dividesParts] at h
          | cons n high =>
              rw [dividesParts] at h
              split at h
              · rename_i heq
                obtain ⟨hlow, hhigh, hback⟩ := ih h
                have hmt : comparePart m t = .eq := Std.OrientedCmp.eq_comm.1 heq.1
                have hnm : comparePart n m = .eq := Std.OrientedCmp.eq_comm.1 heq.2.2
                simp only [compareParts, hmt, heq.2.1, hnm, Ordering.eq_then, hlow, hhigh, hback,
                  and_self]
              · simp only [Bool.and_eq_true, beq_iff_eq] at h
                obtain ⟨⟨⟨-, hlow⟩, hhigh⟩, hback⟩ := h
                refine ⟨?_, ?_, hback⟩
                · rw [compareParts, hlow, Ordering.lt_then]
                · rw [compareParts, hhigh, Ordering.lt_then]

theorem isLE_comparePart_of_cons (h : (compareParts (x :: as) (y :: bs)).isLE = true) :
    (comparePart x y).isLE = true := by
  rw [compareParts, Ordering.isLE_then_iff_or] at h
  obtain hlt | ⟨heq, -⟩ := h
  · rw [hlt]
    rfl
  · rw [heq]
    rfl

/-- The first part of the lesser version is the lesser one, if one of the two is a text and the
other one a number. -/
theorem comparePart_eq_lt_of_cons (h : (compareParts (x :: as) (y :: bs)).isLE = true)
    (hkinds : isNumber x = false ∧ isNumber y = true ∨ isNumber x = true ∧ isNumber y = false) :
    comparePart x y = .lt := by
  have hne : comparePart x y ≠ .eq := by
    obtain ⟨hx, hy⟩ | ⟨hx, hy⟩ := hkinds
    · exact comparePart_ne_eq hx hy
    · exact fun heq => comparePart_ne_eq hy hx (Std.OrientedCmp.eq_comm.1 heq)
  rw [compareParts, Ordering.isLE_then_iff_or] at h
  exact h.resolve_right fun heq => hne heq.1

/-- Three versions are in order unless one of them divides the other two. By induction on the
parts they have in common, up to the first place where the three are not equal: there the
parts are alike, or one of them is the text and the other two are the numbers. -/
theorem isLE_compareParts_or (hab : (compareParts as bs).isLE = true)
    (hbc : (compareParts bs cs).isLE = true) :
    (compareParts as cs).isLE = true ∨ dividesParts bs as cs = true ∨
      dividesParts as cs bs = true ∨ dividesParts cs bs as = true := by
  induction as generalizing bs cs with
  | nil => cases cs <;> exact .inl rfl
  | cons x as ih =>
      cases bs with
      | nil => cases hab
      | cons y bs =>
          cases cs with
          | nil => cases hbc
          | cons z cs =>
              by_cases hac : (compareParts (x :: as) (z :: cs)).isLE = true
              · exact .inl hac
              have hca : (compareParts (z :: cs) (x :: as)).isLE = true := by
                rw [Bool.not_eq_true, Ordering.isLE_eq_false] at hac
                rw [Std.OrientedCmp.gt_iff_lt.1 hac]
                rfl
              refine .inr ?_
              obtain halike | ⟨hx, hy, hz⟩ | ⟨hx, hy, hz⟩ | ⟨hx, hy, hz⟩ := areAlike_or x y z
              · obtain hlt | ⟨hxy, hyz, hxz⟩ :=
                  halike.ascend (isLE_comparePart_of_cons hab) (isLE_comparePart_of_cons hbc)
                · rw [compareParts, hlt] at hac
                  exact absurd rfl hac
                · rw [compareParts, hxy, Ordering.eq_then] at hab
                  rw [compareParts, hyz, Ordering.eq_then] at hbc
                  rw [compareParts, hxz, Ordering.eq_then] at hac
                  have hyx := Std.OrientedCmp.eq_comm.1 hxy
                  have hzy := Std.OrientedCmp.eq_comm.1 hyz
                  have hzx := Std.OrientedCmp.eq_comm.1 hxz
                  rw [dividesParts_of_eq hyx hyz hxz, dividesParts_of_eq hxz hxy hzy,
                    dividesParts_of_eq hzy hzx hyx]
                  exact (ih hab hbc).resolve_left hac
              · exact .inr (.inl (dividesParts_of_text hx hz hy
                  (comparePart_eq_lt_of_cons hca (.inr ⟨hz, hx⟩))
                  (comparePart_eq_lt_of_cons hab (.inl ⟨hx, hy⟩)) hbc))
              · exact .inl (dividesParts_of_text hy hx hz
                  (comparePart_eq_lt_of_cons hab (.inr ⟨hx, hy⟩))
                  (comparePart_eq_lt_of_cons hbc (.inl ⟨hy, hz⟩)) hca)
              · exact .inr (.inr (dividesParts_of_text hz hy hx
                  (comparePart_eq_lt_of_cons hbc (.inr ⟨hy, hz⟩))
                  (comparePart_eq_lt_of_cons hca (.inl ⟨hz, hx⟩)) hab))

/-! ## Versions -/

instance : Std.OrientedCmp compare where
  eq_swap := Std.OrientedCmp.eq_swap (α := List (List Char))

/-- The version `text` is between `low` and `high`, and these two are the other way round. -/
def divides (text low high : String) : Bool := dividesParts (parts text) (parts low) (parts high)

/-- Among the versions, none is between two that are the other way round. -/
def Untangled (versions : List String) : Prop :=
  ∀ text ∈ versions, ∀ low ∈ versions, ∀ high ∈ versions, divides text low high = false

/-- The versions are in order: the order is transitive among them. -/
def Ordered (versions : List String) : Prop :=
  ∀ a ∈ versions, ∀ b ∈ versions, ∀ c ∈ versions,
    (compare a b).isLE = true → (compare b c).isLE = true → (compare a c).isLE = true

theorem Ordered.of_subset {few many : List String} (h : Ordered many) (hsub : few ⊆ many) :
    Ordered few :=
  fun a ha b hb c hc => h a (hsub ha) b (hsub hb) c (hsub hc)

instance (versions : List String) : Decidable (Untangled versions) :=
  inferInstanceAs (Decidable (∀ text ∈ versions, _))

theorem Untangled.ordered {versions : List String} (h : Untangled versions) : Ordered versions := by
  intro a ha b hb c hc hab hbc
  have hdivides := isLE_compareParts_or hab hbc
  have hbac := h b hb a ha c hc
  have hacb := h a ha c hc b hb
  have hcba := h c hc b hb a ha
  rw [divides] at hbac hacb hcba
  rw [hbac, hacb, hcba] at hdivides
  simpa [compare] using hdivides

theorem Ordered.untangled {versions : List String} (h : Ordered versions) :
    Untangled versions := by
  intro text htext low hlow high hhigh
  rw [← Bool.not_eq_true]
  intro hdivides
  obtain ⟨hbelow, habove, hback⟩ := order_of_dividesParts hdivides
  have hle := h text htext high hhigh low hlow (by rw [compare, habove]; rfl) hback
  exact Std.OrientedCmp.not_isLE_of_lt hbelow hle

theorem ordered_iff_untangled {versions : List String} :
    Ordered versions ↔ Untangled versions :=
  ⟨Ordered.untangled, Untangled.ordered⟩

/-! ## The latest version -/

section Latest

variable {α : Type} {version : α → String}

/-- The later one of two candidates; of equal ones, the second. -/
def later (version : α → String) (a b : α) : α :=
  if compare (version a) (version b) = .gt then a else b

theorem later_eq_or (a b : α) : later version a b = a ∨ later version a b = b := by
  rw [later]
  split
  · exact .inl rfl
  · exact .inr rfl

theorem isLE_compare_self (a : String) : (compare a a).isLE = true :=
  Ordering.isLE_of_eq_eq Std.ReflCmp.compare_self

/-- Neither of the two candidates is greater than the later one. -/
theorem isLE_later (a b : α) :
    (compare (version a) (version (later version a b))).isLE = true ∧
      (compare (version b) (version (later version a b))).isLE = true := by
  rw [later]
  split
  · rename_i hgt
    exact ⟨isLE_compare_self _, Ordering.isLE_of_eq_lt (Std.OrientedCmp.gt_iff_lt.1 hgt)⟩
  · rename_i hle
    exact ⟨Ordering.isLE_iff_ne_gt.2 hle, isLE_compare_self _⟩

theorem latest?_cons_cons (a b : α) (rest : List α) :
    latest? version (a :: b :: rest) = latest? version (later version a b :: rest) := rfl

/-- Among candidates in order, none is greater than the one that is picked for the latest. By
induction on the candidates that are left, for every candidate that is ahead so far. -/
theorem isLE_of_latest? {a best : α} {rest : List α}
    (hordered : Ordered ((a :: rest).map version))
    (h : latest? version (a :: rest) = some best) :
    ∀ candidate ∈ a :: rest, (compare (version candidate) (version best)).isLE = true := by
  induction rest generalizing a with
  | nil =>
      cases h
      intro candidate hcandidate
      rw [List.mem_singleton.1 hcandidate]
      exact isLE_compare_self _
  | cons b rest ih =>
      have hahead : later version a b ∈ a :: b :: rest := by
        obtain heq | heq : later version a b = a ∨ later version a b = b := later_eq_or a b
        · simp [heq]
        · simp [heq]
      have hsub : later version a b :: rest ⊆ a :: b :: rest :=
        List.cons_subset.2 ⟨hahead, fun c hc => List.mem_cons_of_mem a (List.mem_cons_of_mem b hc)⟩
      have hbest : best ∈ a :: b :: rest := mem_of_latest? h
      rw [latest?_cons_cons] at h
      have hrest := ih (hordered.of_subset (List.map_subset version hsub)) h
      have hthrough (c : α) (hc : c ∈ a :: b :: rest)
          (hle : (compare (version c) (version (later version a b))).isLE = true) :
          (compare (version c) (version best)).isLE = true :=
        hordered _ (List.mem_map_of_mem hc) _ (List.mem_map_of_mem hahead)
          _ (List.mem_map_of_mem hbest) hle (hrest _ List.mem_cons_self)
      intro candidate hcandidate
      rcases List.mem_cons.1 hcandidate with rfl | htail
      · exact hthrough candidate hcandidate (isLE_later candidate b).1
      rcases List.mem_cons.1 htail with rfl | htail
      · exact hthrough candidate hcandidate (isLE_later a candidate).2
      · exact hrest candidate (List.mem_cons_of_mem _ htail)

end Latest

end Version

/-! ## Catalogues -/

namespace Catalogue

/-- The two releases are of one package in one version. -/
def Same (r s : Release) : Prop :=
  r.version = s.version ∧ Text.lowercase r.name = Text.lowercase s.name

theorem mem_of_mem_place {r s : Release} {releases : List Release} (h : s ∈ place r releases) :
    s = r ∨ s ∈ releases := by
  induction releases with
  | nil => exact .inl (List.mem_singleton.1 h)
  | cons t rest ih =>
      rw [place] at h
      split at h
      · exact List.mem_cons.1 h
      · split at h
        · exact (List.mem_cons.1 h).imp_right (List.mem_cons_of_mem t)
        · rcases List.mem_cons.1 h with rfl | h
          · exact .inr List.mem_cons_self
          · exact (ih h).imp_right (List.mem_cons_of_mem t)

/-- A release that is registered is in the catalogue. -/
theorem mem_place (r : Release) (releases : List Release) : r ∈ place r releases := by
  induction releases with
  | nil => exact List.mem_singleton_self r
  | cons t rest ih =>
      rw [place]
      split
      · exact List.mem_cons_self
      · split
        · exact List.mem_cons_self
        · exact List.mem_cons_of_mem t ih

/-- What a release that is registered takes the place of is of the same package in the same
version. -/
theorem exists_same_of_mem_place {r s : Release} {releases : List Release} (h : s ∈ releases) :
    ∃ t ∈ place r releases, Same s t := by
  induction releases with
  | nil => cases h
  | cons t rest ih =>
      rw [place]
      split
      · exact ⟨s, List.mem_cons_of_mem r h, rfl, rfl⟩
      · split
        · rename_i hsame
          rcases List.mem_cons.1 h with rfl | h
          · exact ⟨r, List.mem_cons_self, hsame.1.symm, hsame.2.symm⟩
          · exact ⟨s, List.mem_cons_of_mem r h, rfl, rfl⟩
        · rcases List.mem_cons.1 h with rfl | h
          · exact ⟨s, List.mem_cons_self, rfl, rfl⟩
          · obtain ⟨u, hu, hsame⟩ := ih h
            exact ⟨u, List.mem_cons_of_mem t hu, hsame⟩

theorem mem_of_mem_foldl {c : Catalogue} {rs : List Release} {s : Release}
    (h : s ∈ (rs.foldl register c).releases) : s ∈ rs ∨ s ∈ c.releases := by
  induction rs generalizing c with
  | nil => exact .inr h
  | cons r rs ih =>
      rcases ih h with h | h
      · exact .inl (List.mem_cons_of_mem r h)
      · rcases mem_of_mem_place h with rfl | h
        · exact .inl List.mem_cons_self
        · exact .inr h

theorem exists_same_of_mem {c : Catalogue} {rs : List Release} {s : Release}
    (h : s ∈ rs ∨ s ∈ c.releases) : ∃ t ∈ (rs.foldl register c).releases, Same s t := by
  induction rs generalizing c s with
  | nil => exact ⟨s, by simpa using h, rfl, rfl⟩
  | cons r rs ih =>
      have hnext (t : Release) (ht : t ∈ rs ∨ t ∈ (c.register r).releases) (hsame : Same s t) :
          ∃ u ∈ (rs.foldl register (c.register r)).releases, Same s u := by
        obtain ⟨u, hu, hversion, hname⟩ := ih ht
        exact ⟨u, hu, hsame.1.trans hversion, hsame.2.trans hname⟩
      obtain (h | h) | h := h.imp_left List.mem_cons.1
      · exact hnext r (.inr (mem_place r c.releases)) ⟨congrArg _ h, congrArg _ (congrArg _ h)⟩
      · exact hnext s (.inl h) ⟨rfl, rfl⟩
      · obtain ⟨t, ht, hsame⟩ := exists_same_of_mem_place (r := r) h
        exact hnext t (.inr ht) hsame

/-- The releases of a package among the given ones. -/
def named (name : String) (rs : List Release) : List Release :=
  rs.filter (·.isOf (Text.lowercase name))

variable {rs : List Release} {name : String} {r s : Release}

theorem mem_named_iff : r ∈ named name rs ↔ r ∈ rs ∧ Text.lowercase r.name = Text.lowercase name := by
  rw [named, List.mem_filter, Release.isOf, beq_iff_eq]

/-- The releases of a package in a catalogue are some of those that were registered. -/
theorem releasesOf_ofReleases_subset : (ofReleases rs).releasesOf name ⊆ named name rs := by
  intro s hs
  obtain ⟨hmem, hname⟩ := mem_named_iff.1 hs
  rcases mem_of_mem_foldl hmem with hmem | hmem
  · exact mem_named_iff.2 ⟨hmem, hname⟩
  · cases hmem

/-- Each registered version of a package is in the catalogue. -/
theorem exists_version_of_named (h : r ∈ named name rs) :
    ∃ s ∈ (ofReleases rs).releasesOf name, s.version = r.version := by
  obtain ⟨hmem, hname⟩ := mem_named_iff.1 h
  obtain ⟨s, hs, hversion, hsame⟩ := exists_same_of_mem (c := empty) (.inl hmem)
  exact ⟨s, mem_named_iff.2 ⟨hs, hsame.symm.trans hname⟩, hversion.symm⟩

theorem resolver_latest {c : Catalogue} {best : Release}
    (h : Version.latest? Release.version (c.releasesOf name) = some best) :
    c.resolver ⟨name, none⟩ = .ok best.resolved := by
  simp only [resolver, h]

end Catalogue

open Version Catalogue in
/-- Versions are equal to themselves and compare the same way from either side; versions are in
order exactly when none of them is between two that are the other way round; and from releases
of a package that are in order, registered one after the other as they come, the catalogue
picks for the latest one that no other is greater than. -/
theorem Catalogue.picks_latest (a b : String) (versions : List String) (rs : List Release)
    (name : String) :
    Version.compare a a = .eq ∧
      Version.compare b a = (Version.compare a b).swap ∧
      (Ordered versions ↔ Untangled versions) ∧
      (named name rs ≠ [] → Untangled ((named name rs).map Release.version) →
        ∃ best ∈ named name rs, (ofReleases rs).resolver ⟨name, none⟩ = .ok best.resolved ∧
          ∀ r ∈ named name rs, (Version.compare r.version best.version).isLE = true) := by
  refine ⟨Std.ReflCmp.compare_self, Std.OrientedCmp.eq_swap, ordered_iff_untangled,
    fun hsome huntangled => ?_⟩
  obtain ⟨r, hr⟩ := List.exists_mem_of_ne_nil _ hsome
  obtain ⟨s, hs, -⟩ := exists_version_of_named hr
  obtain ⟨first, rest, hreleases⟩ := List.exists_cons_of_ne_nil (List.ne_nil_of_mem hs)
  have hordered : Ordered (((ofReleases rs).releasesOf name).map Release.version) :=
    huntangled.ordered.of_subset (List.map_subset _ releasesOf_ofReleases_subset)
  obtain ⟨best, hbest⟩ : ∃ best,
      Version.latest? Release.version ((ofReleases rs).releasesOf name) = some best := by
    rw [hreleases]
    exact ⟨_, rfl⟩
  refine ⟨best, releasesOf_ofReleases_subset (mem_of_latest? hbest), resolver_latest hbest, ?_⟩
  intro r hr
  obtain ⟨s, hs, hversion⟩ := exists_version_of_named hr
  rw [hreleases] at hordered hbest hs
  rw [← hversion]
  exact isLE_of_latest? hordered hbest s hs

/-- Releases of one package, in no particular order. -/
def kitReleases : List Release :=
  [⟨"Kit", "1.10.0-rc", ["c"]⟩, ⟨"Kit", "1.9.2", ["a"]⟩, ⟨"KIT", "1.10.0", ["b"]⟩]

theorem Catalogue.picks_latest_candidate :
    Version.Untangled ((named "kit" kitReleases).map Release.version) ∧
      ∃ best ∈ named "kit" kitReleases,
        (ofReleases kitReleases).resolver ⟨"kit", none⟩ = .ok best.resolved ∧
          ∀ r ∈ named "kit" kitReleases,
            (Version.compare r.version best.version).isLE = true :=
  have huntangled : Version.Untangled ((named "kit" kitReleases).map Release.version) := by
    decide +kernel
  have hpick := (picks_latest "1.9.2" "1.10.0" [] kitReleases "kit").2.2.2
  ⟨huntangled, hpick (by decide +kernel) huntangled⟩

/-- The text `0a` is between the numbers `01` and `1`, which are equal: the latest of these
versions is less than another one of them. -/
theorem Catalogue.not_picks_latest_mixed :
    (¬ ∀ a b c, Version.compare a b ≠ .gt → Version.compare b c ≠ .gt →
        Version.compare a c ≠ .gt) ∧
      (ofReleases [⟨"P", "01.1", ["a"]⟩, ⟨"P", "1.01", ["b"]⟩, ⟨"P", "1.0a", ["c"]⟩]).resolver
          ⟨"P", none⟩ = .ok ⟨⟨"P", some "1.0a"⟩, ["c"]⟩ ∧
        Version.compare "01.1" "1.0a" = .gt := by
  refine ⟨fun htrans => ?_, by decide +kernel, by decide +kernel⟩
  exact htrans "01.1" "1.01" "1.0a" (by decide +kernel) (by decide +kernel) (by decide +kernel)

end ScriptHost
