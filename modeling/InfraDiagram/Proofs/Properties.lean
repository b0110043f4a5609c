import InfraDiagram.Proofs.Outcome
import InfraDiagram.Resource.Emit
import Mathlib.Data.List.TakeWhile

/-!
# Nodes with properties of the right types

What the properties of a node have to look like for it to be declared: `Node.WellTyped`. Reading
them succeeds exactly then, and otherwise blames the node (`Reads`), whatever the settings and the
rest of the diagram are.
-/

namespace InfraDiagram

/-! ## 1. The predicate -/

/-- Not given, null, or a text. -/
def OptionalText (v : Option Value) : Prop :=
  v = none ∨ v = some .null ∨ ∃ s, v = some (.str s)

/-- Not given, null, or a positive integer of 32 bits. -/
def OptionalCount (v : Option Value) : Prop :=
  v = none ∨ v = some .null ∨ ∃ i : Int, v = some (.int i) ∧ 1 ≤ i ∧ i ≤ 4294967295

/-- A text that names an engine, apart from blanks around it and the case of ASCII letters. -/
def EngineName (v : Option Value) : Prop :=
  ∃ s, v = some (.str s) ∧ Text.lower (Text.trim s) ∈ ["mysql", "postgres", "postgresql"]

/-- The text properties that the declaration of a kind of node reads, apart from the engine. -/
def NodeKind.textKeys : NodeKind → List String
  | .vpc => []
  | .server => [Property.amiId, Property.availabilityZone, Property.instanceType,
      Property.userData, Property.appPath]
  | .database => [Property.instanceType]
  | .bucket => [Property.indexDocument, Property.errorDocument, Property.appPath]

/-- **A node whose declaration can read all its properties.** -/
structure Node.WellTyped (n : Node) : Prop where
  texts : ∀ key ∈ n.kind.textKeys, OptionalText (n.property? key)
  engine : n.kind = .database → EngineName (n.property? Property.engine)
  storage : n.kind = .database → OptionalCount (n.property? Property.allocatedStorage)

/-! ## 2. Readings -/

/-- **A reading of a node's properties** succeeds exactly if `p` holds, and else blames the node. -/
structure Reads {α : Type} (n : Node) (x : Except CompileError α) (p : Prop) : Prop where
  ok : p → ∃ a, x = .ok a
  error : ¬ p → ∃ reason, x = .error (.unsupported n.id reason)

namespace Reads

variable {α β : Type} {n : Node} {p q : Prop}

theorem of_ok (n : Node) (a : α) : Reads n (.ok a) True :=
  ⟨fun _ => ⟨a, rfl⟩, fun h => absurd trivial h⟩

theorem congr {x : Except CompileError α} (h : Reads n x p) (e : p ↔ q) : Reads n x q :=
  ⟨fun hq => h.ok (e.mpr hq), fun hq => h.error fun hp => hq (e.mp hp)⟩

/-- Two readings, one after the other. -/
theorem bind {x : Except CompileError α} {f : α → Except CompileError β} (h : Reads n x p)
    (h' : ∀ a, Reads n (f a) q) : Reads n (x >>= f) (p ∧ q) := by
  refine ⟨fun ⟨hp, hq⟩ => ?_, fun hpq => ?_⟩
  · obtain ⟨a, rfl⟩ := h.ok hp
    exact (h' a).ok hq
  · by_cases hp : p
    · obtain ⟨a, rfl⟩ := h.ok hp
      exact (h' a).error fun hq => hpq ⟨hp, hq⟩
    · obtain ⟨reason, rfl⟩ := h.error hp
      exact ⟨reason, rfl⟩

end Reads

theorem Node.text?_reads (n : Node) (key : String) :
    Reads n (n.text? key) (OptionalText (n.property? key)) := by
  unfold Node.text?
  cases hv : n.property? key with
  | none => exact (Reads.of_ok n _).congr (by simp [OptionalText])
  | some v =>
    cases v with
    | null => exact (Reads.of_ok n _).congr (by simp [OptionalText])
    | str s => exact (Reads.of_ok n _).congr (by simp [OptionalText])
    | bool b => exact ⟨fun h => by simp [OptionalText] at h, fun _ => ⟨_, rfl⟩⟩
    | int i => exact ⟨fun h => by simp [OptionalText] at h, fun _ => ⟨_, rfl⟩⟩
    | double d => exact ⟨fun h => by simp [OptionalText] at h, fun _ => ⟨_, rfl⟩⟩
    | arr items => exact ⟨fun h => by simp [OptionalText] at h, fun _ => ⟨_, rfl⟩⟩
    | obj fields => exact ⟨fun h => by simp [OptionalText] at h, fun _ => ⟨_, rfl⟩⟩

theorem Node.positiveValue?_int (i : Int) :
    (∃ k, Node.positiveValue? (.int i) = some k) ↔ 1 ≤ i ∧ i ≤ 4294967295 := by
  have e : Node.positiveValue? (.int i) =
      if 0 < i ∧ i < 4294967296 then some i.toNat else none := rfl
  rw [e]
  constructor
  · rintro ⟨k, hk⟩
    split at hk
    · omega
    · cases hk
  · intro h
    rw [if_pos (by omega)]
    exact ⟨_, rfl⟩

theorem Node.positive?_reads (n : Node) (key : String) :
    Reads n (n.positive? key) (OptionalCount (n.property? key)) := by
  unfold Node.positive?
  cases hv : n.property? key with
  | none => exact (Reads.of_ok n _).congr (by simp [OptionalCount])
  | some v =>
    cases v with
    | null => exact (Reads.of_ok n _).congr (by simp [OptionalCount])
    | int i =>
      have hcount : OptionalCount (some (.int i)) ↔ 1 ≤ i ∧ i ≤ 4294967295 := by
        simp [OptionalCount]
      rw [hcount, ← Node.positiveValue?_int]
      cases hk : Node.positiveValue? (.int i) with
      | some k => exact ⟨fun _ => ⟨some k, by simp only [hk]⟩, fun h => absurd ⟨k, rfl⟩ h⟩
      | none => exact ⟨nofun, fun _ => ⟨.notPositive key (.int i), by simp only [hk]⟩⟩
    | bool b => exact ⟨fun h => by simp [OptionalCount] at h, fun _ => ⟨_, rfl⟩⟩
    | double d => exact ⟨fun h => by simp [OptionalCount] at h, fun _ => ⟨_, rfl⟩⟩
    | str s => exact ⟨fun h => by simp [OptionalCount] at h, fun _ => ⟨_, rfl⟩⟩
    | arr items => exact ⟨fun h => by simp [OptionalCount] at h, fun _ => ⟨_, rfl⟩⟩
    | obj fields => exact ⟨fun h => by simp [OptionalCount] at h, fun _ => ⟨_, rfl⟩⟩

/-! ## 3. Engines -/

theorem Engine.ofText?_eq_none_iff (s : String) :
    Engine.ofText? s = none ↔ Text.lower (Text.trim s) ∉ ["mysql", "postgres", "postgresql"] := by
  unfold Engine.ofText? Engine.normalize
  split <;> simp_all

/-- Nothing but blanks names no engine. -/
theorem Engine.ofText?_of_isBlank {s : String} (h : Text.isBlank s = true) :
    Engine.ofText? s = none := by
  have hdrop : s.toList.dropWhile Text.isBlankChar = [] :=
    List.dropWhile_eq_nil_iff.mpr (List.all_eq_true.mp h)
  have htrim : Text.trim s = "" := by
    unfold Text.trim Text.trimChars
    rw [hdrop]
    rfl
  rw [Engine.ofText?_eq_none_iff, htrim]
  decide

namespace Resource.Database

variable {n : Node} {s : String}

theorem engineOf_of_blank (hv : n.property? Property.engine = some (.str s))
    (hb : Text.isBlank s = true) : engineOf n = .error (.unsupported n.id .engineMissing) := by
  simp only [engineOf, Node.text?, hv, Text.nonBlank?, hb, ↓reduceIte, Outcome.ok_bind]

theorem engineOf_of_known (hv : n.property? Property.engine = some (.str s))
    (hb : Text.isBlank s = false) {engine : Engine} (he : Engine.ofText? s = some engine) :
    engineOf n = .ok engine := by
  simp only [engineOf, Node.text?, hv, Text.nonBlank?, hb, Bool.false_eq_true, ↓reduceIte,
    Outcome.ok_bind, he]

theorem engineOf_of_unknown (hv : n.property? Property.engine = some (.str s))
    (hb : Text.isBlank s = false) (he : Engine.ofText? s = none) :
    engineOf n = .error (.unsupported n.id (.engineUnknown (Engine.normalize s))) := by
  simp only [engineOf, Node.text?, hv, Text.nonBlank?, hb, Bool.false_eq_true, ↓reduceIte,
    Outcome.ok_bind, he]

/-- A declaration reads the engine of a node exactly if the node names one, and it is then the one
    that `Engine.ofNode?` finds. -/
theorem engineOf_cases (n : Node) :
    (EngineName (n.property? Property.engine) ∧
      ∃ engine, engineOf n = .ok engine ∧ Engine.ofNode? n = some engine) ∨
    (¬ EngineName (n.property? Property.engine) ∧
      ∃ reason, engineOf n = .error (.unsupported n.id reason)) := by
  have named : ∀ s, EngineName (some (.str s)) ↔ Engine.ofText? s ≠ none := by
    intro s
    rw [Ne, Engine.ofText?_eq_none_iff, Classical.not_not]
    simp [EngineName]
  cases hv : n.property? Property.engine with
  | none =>
    refine Or.inr ⟨by simp [EngineName], .engineMissing, ?_⟩
    simp only [engineOf, Node.text?, hv, Outcome.ok_bind]
  | some v =>
    cases v with
    | str s =>
      rw [named s]
      cases he : Engine.ofText? s with
      | some engine =>
        have hb : Text.isBlank s = false := by
          refine Bool.eq_false_iff.mpr fun hb => ?_
          rw [Engine.ofText?_of_isBlank hb] at he
          cases he
        refine Or.inl ⟨by simp, engine, engineOf_of_known hv hb he, ?_⟩
        simp only [Engine.ofNode?, hv, he]
      | none =>
        refine Or.inr ⟨by simp, ?_⟩
        cases hb : Text.isBlank s with
        | true => exact ⟨_, engineOf_of_blank hv hb⟩
        | false => exact ⟨_, engineOf_of_unknown hv hb he⟩
    | null =>
      refine Or.inr ⟨by simp [EngineName], .engineMissing, ?_⟩
      simp only [engineOf, Node.text?, hv, Outcome.ok_bind]
    | _ =>
      obtain ⟨reason, e⟩ := (n.text?_reads Property.engine).error
        (by rw [hv]; simp [OptionalText])
      refine Or.inr ⟨by simp [EngineName], reason, ?_⟩
      rw [engineOf, e]
      rfl

theorem engineOf_reads (n : Node) :
    Reads n (engineOf n) (EngineName (n.property? Property.engine)) := by
  rcases engineOf_cases n with ⟨hp, engine, e, -⟩ | ⟨hp, reason, e⟩
  · exact ⟨fun _ => ⟨engine, e⟩, fun h => absurd hp h⟩
  · exact ⟨fun h => absurd h hp, fun _ => ⟨reason, e⟩⟩

theorem ofNode?_of_engineOf {engine : Engine} (h : engineOf n = .ok engine) :
    Engine.ofNode? n = some engine := by
  rcases engineOf_cases n with ⟨-, engine', e, hn⟩ | ⟨-, reason, e⟩
  · rw [e] at h
    cases h
    exact hn
  · rw [e] at h
    cases h

end Resource.Database

/-! ## 4. Whole nodes -/

namespace Resource

variable {n : Node}

theorem Server.ofNode_reads (settings : Settings) (h : n.kind = .server) :
    Reads n (Server.ofNode settings n) n.WellTyped := by
  have reads := (n.text?_reads Property.amiId).bind fun ami =>
    (n.text?_reads Property.availabilityZone).bind fun zone =>
    (n.text?_reads Property.instanceType).bind fun instanceType =>
    (n.text?_reads Property.userData).bind fun userData =>
    (n.text?_reads Property.appPath).bind fun appPath =>
    Reads.of_ok n ({
      ami, zone := zone.getD settings.defaultZone
      instanceType := instanceType.getD settings.instanceType, userData, appPath } : Server)
  refine Reads.congr reads ⟨fun hp => ⟨?_, ?_, ?_⟩, fun hw => ?_⟩
  · rw [h]
    simpa [NodeKind.textKeys] using hp
  · intro h'
    rw [h] at h'
    cases h'
  · intro h'
    rw [h] at h'
    cases h'
  · have := hw.texts
    rw [h] at this
    simpa [NodeKind.textKeys] using this

theorem Database.ofNode_reads (settings : Settings) (h : n.kind = .database) :
    Reads n (Database.ofNode settings n) n.WellTyped := by
  have reads := (Database.engineOf_reads n).bind fun engine =>
    (n.text?_reads Property.instanceType).bind fun instanceType =>
    (n.positive?_reads Property.allocatedStorage).bind fun storage =>
    Reads.of_ok n ({
      engine, instanceType := instanceType.getD settings.databaseInstanceType
      storage := storage.getD settings.allocatedStorage.toNat } : Database)
  refine Reads.congr reads ⟨fun hp => ⟨?_, fun _ => hp.1, fun _ => hp.2.2.1⟩, fun hw => ?_⟩
  · rw [h]
    simpa [NodeKind.textKeys] using hp.2.1
  · have := hw.texts
    rw [h] at this
    exact ⟨hw.engine h, by simpa [NodeKind.textKeys] using this, hw.storage h, trivial⟩

theorem Bucket.ofNode_reads (h : n.kind = .bucket) : Reads n (Bucket.ofNode n) n.WellTyped := by
  have reads := (n.text?_reads Property.indexDocument).bind fun index =>
    (n.text?_reads Property.errorDocument).bind fun errorPage =>
    (n.text?_reads Property.appPath).bind fun appPath =>
    Reads.of_ok n ({ index, errorPage := errorPage.getD Bucket.defaultErrorPage, appPath } : Bucket)
  refine Reads.congr reads ⟨fun hp => ⟨?_, ?_, ?_⟩, fun hw => ?_⟩
  · rw [h]
    simpa [NodeKind.textKeys] using hp
  · intro h'
    rw [h] at h'
    cases h'
  · intro h'
    rw [h] at h'
    cases h'
  · have := hw.texts
    rw [h] at this
    simpa [NodeKind.textKeys] using this

end Resource

theorem Node.wellTyped_of_vpc {n : Node} (h : n.kind = .vpc) : n.WellTyped := by
  refine ⟨fun key hk => ?_, fun h' => ?_, fun h' => ?_⟩
  · rw [h] at hk
    cases hk
  · rw [h] at h'
    cases h'
  · rw [h] at h'
    cases h'

end InfraDiagram
