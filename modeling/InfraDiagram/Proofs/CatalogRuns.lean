import InfraDiagram.Settings.Catalog
import Mathlib.Data.List.Forall2
import Mathlib.Data.List.Induction

/-!
# Catalogs as maps

A catalog is a list of services that is searched from its start, and an insertion overwrites the
first service of the name, spelling included. Read by names it is a map all the same: after any
insertions a name leads to the service that was inserted last under it, and otherwise to what it led
to before (`service?_insertAll`). A service further back with the same name is never seen again, and
never in the way.

Names are compared by making capitals small. `SameName` says letter by letter what that compares.
-/

namespace InfraDiagram

/-! ## 1. Letters and names -/

namespace Text

/-- An ASCII capital and its small letter. -/
def Capital (capital small : Char) : Prop :=
  'A'.toNat ≤ capital.toNat ∧ capital.toNat ≤ 'Z'.toNat ∧ small.toNat = capital.toNat + 32

/-- **The same letter**: the same character, or an ASCII capital and its small letter. -/
def SameLetter (c d : Char) : Prop := c = d ∨ Capital c d ∨ Capital d c

/-- **The same name** apart from the case of ASCII letters, letter by letter. -/
def SameName (s t : String) : Prop := List.Forall₂ SameLetter s.toList t.toList

/-- What making a character small does: it changes capitals and nothing else. -/
theorem toLower_cases (c : Char) :
    Capital c c.toLower ∨
      ¬ ('A'.toNat ≤ c.toNat ∧ c.toNat ≤ 'Z'.toNat) ∧ c.toLower = c := by
  delta Char.toLower
  by_cases h : c.val ≥ 'A'.val ∧ c.val ≤ 'Z'.val
  · rw [dif_pos h]
    refine Or.inl ⟨h.1, h.2, ?_⟩
    have upper : c.val.toNat ≤ 90 := UInt32.le_iff_toNat_le.mp h.2
    have small : c.val.toNat + 32 < 2 ^ 32 := by omega
    exact (UInt32.toNat_add c.val 32).trans (Nat.mod_eq_of_lt small)
  · rw [dif_neg h]
    exact Or.inr ⟨h, rfl⟩

theorem toLower_eq_iff (c d : Char) : c.toLower = d.toLower ↔ SameLetter c d := by
  have z : 'Z'.toNat = 90 := rfl
  have a : 'A'.toNat = 65 := rfl
  unfold SameLetter
  rw [← Char.toNat_inj, ← Char.toNat_inj (c := c)]
  rcases toLower_cases c with hc | ⟨hc, ec⟩ <;> rcases toLower_cases d with hd | ⟨hd, ed⟩
  · -- two capitals have one small letter only if they are one
    unfold Capital at *
    omega
  · rw [ed]
    unfold Capital at *
    omega
  · rw [ec]
    unfold Capital at *
    omega
  · rw [ec, ed]
    unfold Capital
    omega

theorem sameFolded_iff (s t : String) : sameFolded s t = true ↔ SameName s t := by
  have letters : (fun c d : Char => c.toLower = d.toLower) = SameLetter := by
    funext c d
    exact propext (toLower_eq_iff c d)
  unfold sameFolded lower SameName
  rw [beq_iff_eq, String.ofList_inj, ← List.forall₂_eq_eq_eq, List.forall₂_map_left_iff,
    List.forall₂_map_right_iff, letters]

instance (s t : String) : Decidable (SameName s t) := decidable_of_iff _ (sameFolded_iff s t)

theorem SameName.trans {s t u : String} (h : SameName s t) (h' : SameName t u) : SameName s u := by
  rw [← sameFolded_iff] at h h' ⊢
  unfold sameFolded at *
  rw [beq_iff_eq] at *
  exact h.trans h'

theorem SameName.symm {s t : String} (h : SameName s t) : SameName t s := by
  rw [← sameFolded_iff, sameFolded_comm] at h
  exact (sameFolded_iff t s).mp h

theorem SameName.refl (s : String) : SameName s s := (sameFolded_iff s s).mp (sameFolded_refl s)

end Text

namespace Catalog

open Text (SameName)

/-! ## 2. One insertion -/

/-- **The first service of a name**, and the services around it. -/
structure First (services : List Service) (name : String) (before : List Service) (t : Service)
    (after : List Service) : Prop where
  split : services = before ++ t :: after
  hit : SameName t.name name
  first : ∀ u ∈ before, ¬ SameName u.name name

theorem goesBy_iff_sameName (name : String) (s : Service) :
    goesBy name s = true ↔ SameName s.name name := Text.sameFolded_iff s.name name

theorem find?_of_first {services before after : List Service} {t : Service} {name : String}
    (h : First services name before t after) : services.find? (goesBy name) = some t := by
  rw [h.split]
  refine List.find?_eq_some_iff_append.mpr
    ⟨(goesBy_iff_sameName name t).mpr h.hit, before, after, rfl, fun u hu => ?_⟩
  rw [Bool.not_eq_true', Bool.eq_false_iff]
  exact fun hit => h.first u hu ((goesBy_iff_sameName name u).mp hit)

theorem first_or_none (services : List Service) (name : String) :
    (∃ before t after, First services name before t after) ∨
      ∀ t ∈ services, ¬ SameName t.name name := by
  cases found : services.find? (goesBy name) with
  | none =>
    refine Or.inr fun t ht hit => ?_
    exact List.find?_eq_none.mp found t ht ((goesBy_iff_sameName name t).mpr hit)
  | some t =>
    obtain ⟨hit, before, after, split, first⟩ := List.find?_eq_some_iff_append.mp found
    refine Or.inl ⟨before, t, after, split, (goesBy_iff_sameName name t).mp hit, fun u hu hit => ?_⟩
    have miss := first u hu
    rw [(goesBy_iff_sameName name u).mpr hit] at miss
    cases miss

theorem put_cons_of_same {s t : Service} (same : SameName t.name s.name) (rest : List Service) :
    put s (t :: rest) = s :: rest := by
  unfold put
  rw [if_pos ((goesBy_iff_sameName s.name t).mpr same)]

theorem put_cons_of_other {s t : Service} (other : ¬ SameName t.name s.name)
    (rest : List Service) : put s (t :: rest) = t :: put s rest := by
  rw [put, if_neg fun hit => other ((goesBy_iff_sameName s.name t).mp hit)]

/-- A service takes the place of the first one of its name. -/
theorem put_of_first {services before after : List Service} {s t : Service}
    (h : First services s.name before t after) : put s services = before ++ s :: after := by
  obtain ⟨rfl, hit, first⟩ := h
  induction before with
  | nil => exact put_cons_of_same hit after
  | cons u before ih =>
    obtain ⟨other, first⟩ := List.forall_mem_cons.mp first
    rw [List.cons_append, put_cons_of_other other, ih first, List.cons_append]

/-- A service with a new name stands at the end. -/
theorem put_of_new {services : List Service} {s : Service}
    (new : ∀ t ∈ services, ¬ SameName t.name s.name) : put s services = services ++ [s] := by
  induction services with
  | nil => rfl
  | cons u rest ih =>
    obtain ⟨other, new⟩ := List.forall_mem_cons.mp new
    rw [put_cons_of_other other, ih new, List.cons_append]

/-- **An inserted service is found under its name**, however that is written. -/
theorem service?_insert_same (c : Catalog) {s : Service} {name : String}
    (same : SameName s.name name) : (c.insert s).service? name = some s := by
  show (put s c.services).find? (goesBy name) = some s
  rcases first_or_none c.services s.name with ⟨before, t, after, h⟩ | new
  · rw [put_of_first h]
    exact find?_of_first ⟨rfl, same, fun u hu hit => h.first u hu (hit.trans same.symm)⟩
  · rw [put_of_new new]
    exact find?_of_first ⟨rfl, same, fun u hu hit => new u hu (hit.trans same.symm)⟩

/-- **Every other name leads where it led before**: the service that gives way has the name of the
    inserted one. -/
theorem service?_insert_other (c : Catalog) {s : Service} {name : String}
    (other : ¬ SameName s.name name) : (c.insert s).service? name = c.service? name := by
  have skip : ∀ {t : Service}, SameName t.name s.name → ∀ after : List Service,
      (t :: after).find? (goesBy name) = after.find? (goesBy name) := by
    intro t same after
    refine List.find?_cons_of_neg fun hit => other ?_
    exact same.symm.trans ((goesBy_iff_sameName name t).mp hit)
  show (put s c.services).find? (goesBy name) = c.services.find? (goesBy name)
  rcases first_or_none c.services s.name with ⟨before, t, after, h⟩ | new
  · rw [put_of_first h, h.split, List.find?_append, List.find?_append, skip (.refl s.name),
      skip h.hit]
  · rw [put_of_new new, List.find?_append, skip (.refl s.name), List.find?_nil, Option.or_none]

/-- **An insertion by name**: the service is found under its name, and every other name leads where
    it led before. Every service stays at its place but the first one of the name, which gives way;
    there is one service more exactly if there was none of the name. -/
structure Insertion (c : Catalog) (s : Service) (c' : Catalog) : Prop where
  found : ∀ name, SameName s.name name → c'.service? name = some s
  others : ∀ name, ¬ SameName s.name name → c'.service? name = c.service? name
  places : ∀ before t after, c.services = before ++ t :: after →
    ¬ First c.services s.name before t after → c'.services[before.length]? = some t
  replaced : ∀ before t after, First c.services s.name before t after →
    c'.services = before ++ s :: after
  size : c'.services.length = c.services.length ∨ c'.services.length = c.services.length + 1
  grows : c'.services.length = c.services.length + 1 ↔
    ∀ t ∈ c.services, ¬ SameName t.name s.name
  label : c'.fallbackLabel = c.fallbackLabel

/-- A service that is not the first of the name stays at its place. -/
theorem getElem?_put {services before after : List Service} {s t : Service}
    (split : services = before ++ t :: after) (h : ¬ First services s.name before t after) :
    (put s services)[before.length]? = some t := by
  have there : services[before.length]? = some t := by
    rw [split, List.getElem?_append_right (Nat.le_refl _), Nat.sub_self, List.getElem?_cons_zero]
  rcases first_or_none services s.name with ⟨front, u, back, first⟩ | new
  · have apart : front.length ≠ before.length := by
      intro same
      obtain ⟨rfl, rest⟩ := List.append_inj (first.split.symm.trans split) same
      obtain ⟨rfl, rfl⟩ := List.cons.inj rest
      exact h first
    have overwritten : front ++ s :: back = services.set front.length s := by
      rw [first.split, List.set_append_right _ _ (Nat.le_refl _), Nat.sub_self, List.set_cons_zero]
    rw [put_of_first first, overwritten, List.getElem?_set_ne apart, there]
  · rw [put_of_new new, List.getElem?_append_left (List.getElem?_eq_some_iff.mp there).1, there]

/-- There is one service more exactly if there was none of the name. -/
theorem length_put_cases (s : Service) (services : List Service) :
    (put s services).length = services.length ∧ (∃ t ∈ services, SameName t.name s.name) ∨
      (put s services).length = services.length + 1 ∧
        ∀ t ∈ services, ¬ SameName t.name s.name := by
  rcases first_or_none services s.name with ⟨before, t, after, h⟩ | new
  · left
    have member : t ∈ services := h.split ▸ List.mem_append_right before List.mem_cons_self
    refine ⟨?_, t, member, h.hit⟩
    rw [put_of_first h, h.split, List.length_append, List.length_append, List.length_cons,
      List.length_cons]
  · right
    rw [put_of_new new]
    exact ⟨List.length_append .., new⟩

theorem insertion (c : Catalog) (s : Service) : Insertion c s (c.insert s) where
  found _ := service?_insert_same c
  others _ := service?_insert_other c
  places _ _ _ := getElem?_put
  replaced _ _ _ := put_of_first
  size := (length_put_cases s c.services).imp And.left And.left
  grows := by
    show (put s c.services).length = c.services.length + 1 ↔ _
    rcases length_put_cases s c.services with ⟨same, t, member, hit⟩ | ⟨longer, new⟩
    · rw [same]
      exact iff_of_false (Nat.ne_of_lt (Nat.lt_succ_self _)) fun new => new t member hit
    · exact iff_of_true longer new
  label := rfl

/-- No two services have one name. -/
def Distinct (c : Catalog) : Prop :=
  c.services.Pairwise fun s t => ¬ SameName s.name t.name

instance (c : Catalog) : Decidable c.Distinct := inferInstanceAs (Decidable (List.Pairwise _ _))

/-- The inserted service is apart from the others as the one that gives way was. -/
theorem Distinct.insert {c : Catalog} (distinct : c.Distinct) (s : Service) :
    (c.insert s).Distinct := by
  unfold Distinct at *
  show (put s c.services).Pairwise _
  rcases first_or_none c.services s.name with ⟨before, t, after, h⟩ | new
  · rw [h.split, List.pairwise_append, List.pairwise_cons] at distinct
    obtain ⟨front, ⟨apart, back⟩, between⟩ := distinct
    rw [put_of_first h, List.pairwise_append, List.pairwise_cons]
    refine ⟨front, ⟨fun u hu same => apart u hu (h.hit.trans same), back⟩, fun u hu v hv => ?_⟩
    rcases List.mem_cons.mp hv with rfl | hv
    · exact h.first u hu
    · exact between u hu v (List.mem_cons_of_mem t hv)
  · rw [put_of_new new, List.pairwise_append]
    refine ⟨distinct, List.pairwise_singleton _ s, fun u hu v hv => ?_⟩
    rw [List.mem_singleton.mp hv]
    exact new u hu

/-! ## 3. Runs of insertions -/

/-- The catalog after services were inserted in turn. -/
def insertAll (c : Catalog) (inserted : List Service) : Catalog := inserted.foldl insert c

theorem insertAll_concat (c : Catalog) (inserted : List Service) (s : Service) :
    c.insertAll (inserted ++ [s]) = (c.insertAll inserted).insert s :=
  List.foldl_concat insert c s inserted

/-- **The last service of a name** that was inserted. -/
def Last (inserted : List Service) (name : String) (s : Service) : Prop :=
  ∃ before after, inserted = before ++ s :: after ∧ SameName s.name name ∧
    ∀ t ∈ after, ¬ SameName t.name name

/-- **After a run of insertions** a name leads to the last service that was inserted under it, and
    where it led before if there was none. -/
theorem service?_insertAll (c : Catalog) (inserted : List Service) (name : String) :
    (∃ s, Last inserted name s ∧ (c.insertAll inserted).service? name = some s) ∨
      (∀ s ∈ inserted, ¬ SameName s.name name) ∧
        (c.insertAll inserted).service? name = c.service? name := by
  -- on the run from its end: only the last insertion can take the name from an earlier one
  induction inserted using List.reverseRecOn with
  | nil => exact Or.inr ⟨fun s hs => (List.not_mem_nil hs).elim, rfl⟩
  | append_singleton earlier s ih =>
    rw [insertAll_concat]
    by_cases same : SameName s.name name
    · left
      refine ⟨s, ⟨earlier, [], rfl, same, fun t ht => (List.not_mem_nil ht).elim⟩, ?_⟩
      exact service?_insert_same _ same
    · rw [service?_insert_other _ same]
      rcases ih with ⟨t, ⟨before, after, split, hit, last⟩, found⟩ | ⟨none, kept⟩
      · refine Or.inl ⟨t, ⟨before, after ++ [s], ?_, hit, ?_⟩, found⟩
        · rw [split, List.append_assoc, List.cons_append]
        · exact List.forall_mem_append.mpr ⟨last, List.forall_mem_singleton.mpr same⟩
      · exact Or.inr ⟨List.forall_mem_append.mpr ⟨none, List.forall_mem_singleton.mpr same⟩, kept⟩

theorem Distinct.insertAll {c : Catalog} (distinct : c.Distinct) (inserted : List Service) :
    (c.insertAll inserted).Distinct := by
  induction inserted using List.reverseRecOn with
  | nil => exact distinct
  | append_singleton earlier s ih =>
    rw [insertAll_concat]
    exact ih.insert s

/-- **A catalog is a map by names**, whatever its services were at first: a run of insertions reads
    as the last one for each name, each insertion is one by name, and a catalog without two services
    of one name stays one. -/
theorem catalog_is_map (c : Catalog) :
    (∀ inserted name,
      (∃ s, Last inserted name s ∧ (c.insertAll inserted).service? name = some s) ∨
        (∀ s ∈ inserted, ¬ SameName s.name name) ∧
          (c.insertAll inserted).service? name = c.service? name) ∧
      (∀ s, Insertion c s (c.insert s)) ∧
      (c.Distinct → ∀ inserted, (c.insertAll inserted).Distinct) :=
  ⟨service?_insertAll c, insertion c, Distinct.insertAll⟩

theorem standard_stays_distinct :
    standard.Distinct ∧
      (standard.insertAll [⟨"WEB", 8080, "Web App"⟩, ⟨"ftp", 21, "FTP"⟩]).Distinct :=
  ⟨by decide, (catalog_is_map standard).2.2 (by decide) _⟩

-- The spelling is overwritten at the first place, and the second one stays out of sight.
example :
    let shadowed : Catalog := ⟨[⟨"ssh", 22, "SSH"⟩, ⟨"Web", 80, "A"⟩, ⟨"web", 81, "B"⟩], "-"⟩
    let c := shadowed.insertAll [⟨"ftp", 21, "FTP"⟩, ⟨"WEB", 8080, "C"⟩]
    c.services.map Service.name = ["ssh", "WEB", "web", "ftp"] ∧ c.port? "web" = some 8080 := by
  decide

end Catalog

end InfraDiagram
