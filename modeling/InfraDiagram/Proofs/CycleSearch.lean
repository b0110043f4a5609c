import InfraDiagram.Graph.Cycle
import Mathlib.Algebra.BigOperators.Group.Finset.Piecewise
import Mathlib.Logic.Relation

/-!
# The search for a cycle of containment

An id is entered exactly while it lies on the path, the path leads from a start down to the id that
is searched, and whatever has been looked at of an id is done, except for the id below it on the
path (`Sound`). So a child that is entered closes a cycle. An id is left only when all its children
are done; by induction it is then accessible: no way down from it goes on for ever, and so none
leads to a cycle. After the last step every start is done (`Sound.finished`).

The search ends because every step spends something (`cost_step`): a start, a child to be looked at,
or an id on the path. What there is to spend when an id is entered was set aside while it was unmet.
-/

namespace InfraDiagram

open Relation (ReflTransGen TransGen)

/-! ## 1. Cycles and descents -/

/-- What is accessible cannot be reached from a cycle. -/
theorem not_transGen_self_of_acc {α : Type} {r : α → α → Prop} {a c : α} (h : Acc r a)
    (way : ReflTransGen r c a) : ¬ TransGen r c c := by
  have acc : Acc r c := by
    rcases Relation.reflTransGen_iff_eq_or_transGen.mp way with rfl | way
    · exact h
    · exact h.inv_of_transGen way
  clear h way
  induction acc.transGen with
  | intro x _ ih => exact fun cycle => ih x cycle (acc.inv_of_transGen cycle) cycle

namespace Graph

/-! ## 2. Containment between ids -/

/-- An id contains another by some edge. -/
def Encloses (g : Graph) (a b : String) : Prop :=
  ∃ e ∈ g.containsEdges, e.source = a ∧ e.target = b

theorem mem_childIds {g : Graph} {a b : String} : b ∈ g.childIds a ↔ g.Encloses a b := by
  simp only [childIds, List.mem_map, List.mem_filter, beq_iff_eq, Encloses, and_assoc]

namespace Search

/-! ## 3. What a step does -/

/-- **Everything that a step can be.** -/
inductive Steps (children : String → List String) (s : Search) : Turn → Prop where
  | finish (path : s.path = []) (starts : s.starts = []) : Steps children s .finished
  | skip {id : String} {rest : List String} (path : s.path = []) (starts : s.starts = id :: rest)
      (met : s.mark? id ≠ none) : Steps children s (.next { s with starts := rest })
  | start {id : String} {rest : List String} (path : s.path = []) (starts : s.starts = id :: rest)
      (unmet : s.mark? id = none) : Steps children s (.next ({ s with starts := rest }.enter id))
  | leave {id : String} {looked : Nat} {above : List (String × Nat)}
      (path : s.path = (id, looked) :: above) (spent : (children id)[looked]? = none) :
      Steps children s (.next (s.leave id above))
  | meet {id child : String} {looked : Nat} {above : List (String × Nat)}
      (path : s.path = (id, looked) :: above) (look : (children id)[looked]? = some child)
      (entered : s.mark? child = some .entered) : Steps children s (.cycle child)
  | pass {id child : String} {looked : Nat} {above : List (String × Nat)}
      (path : s.path = (id, looked) :: above) (look : (children id)[looked]? = some child)
      (done : s.mark? child = some .done) :
      Steps children s (.next { s with path := (id, looked + 1) :: above })
  | descend {id child : String} {looked : Nat} {above : List (String × Nat)}
      (path : s.path = (id, looked) :: above) (look : (children id)[looked]? = some child)
      (unmet : s.mark? child = none) :
      Steps children s (.next ({ s with path := (id, looked + 1) :: above }.enter child))

theorem steps_step (children : String → List String) (s : Search) :
    Steps children s (s.step children) := by
  unfold step
  split
  · rename_i id looked above path
    split
    · rename_i child look
      unfold visit
      split
      · rename_i entered
        exact .meet path look entered
      · rename_i done
        exact .pass path look done
      · rename_i unmet
        exact .descend path look unmet
    · rename_i spent
      exact .leave path spent
  · rename_i path
    split
    · rename_i starts
      exact .finish path starts
    · rename_i id rest starts
      by_cases met : s.mark? id = none
      · have : ({ s with starts := rest } : Search).mark? id = none := met
        simp only [this, Option.isSome_none, Bool.false_eq_true, if_false]
        exact .start path starts met
      · have some : (({ s with starts := rest } : Search).mark? id).isSome = true :=
          Option.isSome_iff_ne_none.mpr met
        simp only [some, if_true]
        exact .skip path starts met

/-! ## 4. Marks -/

theorem mark?_enter (s : Search) (id x : String) :
    (s.enter id).mark? x = if x = id then some .entered else s.mark? x := by
  by_cases e : x = id
  · simp [mark?, enter, e]
  · simp [mark?, enter, List.lookup_cons, e, beq_eq_false_iff_ne.mpr e]

theorem mark?_leave (s : Search) (id x : String) (above : List (String × Nat)) :
    (s.leave id above).mark? x = if x = id then some .done else s.mark? x := by
  by_cases e : x = id
  · simp [mark?, leave, e]
  · simp [mark?, leave, List.lookup_cons, e, beq_eq_false_iff_ne.mpr e]

/-! ## 5. What the marks and the path mean -/

/-- The ids of the path, from the one that is searched now upwards. -/
def ids (s : Search) : List String := s.path.map Prod.fst

section Runs

variable {children : String → List String} {roots : List String} {s : Search}

/-- **What the marks and the path mean** in a search that starts from the ids `roots`. -/
structure Sound (children : String → List String) (roots : List String) (s : Search) : Prop where
  entered : ∀ id, s.mark? id = some .entered ↔ id ∈ s.ids
  distinct : s.ids.Nodup
  linked : s.ids.IsChain fun below above => below ∈ children above
  reached : ∀ id ∈ s.ids, ∃ r ∈ roots, ReflTransGen (fun a b => b ∈ children a) r id
  /-- What has been looked at below an id of the path is done, or further down on the path. -/
  looked : ∀ lower id looked upper, s.path = lower ++ (id, looked) :: upper →
    ∀ c ∈ (children id).take looked, s.mark? c = some .done ∨ c ∈ lower.map Prod.fst
  done : ∀ id, s.mark? id = some .done → Acc (fun b a => b ∈ children a) id
  ahead : ∀ id ∈ s.starts, id ∈ roots
  behind : ∀ id ∈ roots, id ∈ s.starts ∨ s.mark? id ≠ none

theorem sound_start (children : String → List String) (roots : List String) :
    Sound children roots { starts := roots } where
  entered id := by simp [mark?, ids]
  distinct := List.nodup_nil
  linked := List.IsChain.nil
  reached := List.forall_mem_nil _
  looked lower id looked upper h := by cases lower <;> cases h
  done id h := by simp [mark?] at h
  ahead _ h := h
  behind _ h := Or.inl h

namespace Sound

/-- From every id of the path the way leads down to the one that is searched now. -/
theorem way_down (sound : Sound children roots s) {id : String} {above : List String}
    (h : s.ids = id :: above) {x : String} (hx : x ∈ s.ids) :
    ReflTransGen (fun a b => b ∈ children a) x id := by
  have linked := sound.linked
  rw [h] at hx linked
  clear h
  induction above generalizing id x with
  | nil =>
    rw [List.mem_singleton.mp hx]
  | cons parent above ih =>
    obtain ⟨step, linked⟩ := List.isChain_cons_cons.mp linked
    rcases List.mem_cons.mp hx with rfl | hx
    · exact .refl
    · exact (ih hx linked).tail step

/-- **A child that is entered lies on a cycle**, and the cycle can be reached from a start. -/
theorem cycle (sound : Sound children roots s) {id child : String} {looked : Nat}
    {above : List (String × Nat)} (path : s.path = (id, looked) :: above)
    (look : (children id)[looked]? = some child) (entered : s.mark? child = some .entered) :
    TransGen (fun a b => b ∈ children a) child child ∧
      ∃ r ∈ roots, ReflTransGen (fun a b => b ∈ children a) r child := by
  have mem := (sound.entered child).mp entered
  have top : s.ids = id :: above.map Prod.fst := by rw [ids, path, List.map_cons]
  exact ⟨TransGen.tail' (sound.way_down top mem) (List.mem_of_getElem? look),
    sound.reached child mem⟩

theorem skipped (sound : Sound children roots s) {id : String} {rest : List String}
    (starts : s.starts = id :: rest) (met : s.mark? id ≠ none) :
    Sound children roots { s with starts := rest } where
  entered := sound.entered
  distinct := sound.distinct
  linked := sound.linked
  reached := sound.reached
  looked := sound.looked
  done := sound.done
  ahead x hx := sound.ahead x (starts ▸ List.mem_cons_of_mem id hx)
  behind x hx := by
    rcases sound.behind x hx with hx | hx
    · rw [starts] at hx
      rcases List.mem_cons.mp hx with rfl | hx
      · exact Or.inr met
      · exact Or.inl hx
    · exact Or.inr hx

/-- What has been looked at once one more child has: what had been, and the child. -/
theorem looked_next (sound : Sound children roots s) {id child : String} {looked : Nat}
    {above : List (String × Nat)} (path : s.path = (id, looked) :: above)
    (look : (children id)[looked]? = some child) {lower : List (String × Nat)} {x : String}
    {k : Nat} {upper : List (String × Nat)} (split : (id, looked + 1) :: above = lower ++ (x, k) :: upper)
    {c : String} (hc : c ∈ (children x).take k) :
    (s.mark? c = some .done ∨ c ∈ lower.map Prod.fst) ∨ x = id ∧ c = child := by
  cases lower with
  | nil =>
    obtain ⟨hx, rfl⟩ := List.cons.inj split
    obtain ⟨rfl, rfl⟩ := Prod.mk.inj hx
    rw [List.take_add_one, look] at hc
    rcases List.mem_append.mp hc with hc | hc
    · exact Or.inl (sound.looked [] id looked above path c hc)
    · exact Or.inr ⟨rfl, List.mem_singleton.mp hc⟩
  | cons entry lower =>
    obtain ⟨rfl, later⟩ := List.cons.inj split
    have split' : s.path = ((id, looked) :: lower) ++ (x, k) :: upper := by
      rw [path]
      exact congrArg ((id, looked) :: ·) later
    exact Or.inl (sound.looked _ x k upper split' c hc)

theorem passed (sound : Sound children roots s) {id child : String} {looked : Nat}
    {above : List (String × Nat)} (path : s.path = (id, looked) :: above)
    (look : (children id)[looked]? = some child) (next : s.mark? child = some .done) :
    Sound children roots { s with path := (id, looked + 1) :: above } := by
  have same : ({ s with path := (id, looked + 1) :: above } : Search).ids = s.ids := by
    rw [ids, ids, path]
    rfl
  refine ⟨fun x => same ▸ sound.entered x, same ▸ sound.distinct, same ▸ sound.linked,
    same ▸ sound.reached, fun lower x k upper split c hc => ?_, sound.done, sound.ahead,
    sound.behind⟩
  rcases sound.looked_next path look split hc with h | h
  · exact h
  · exact Or.inl (h.2 ▸ next)

/-- An id that is met for the first time becomes the end of the path. -/
theorem enters (sound : Sound children roots s) (path : List (String × Nat))
    (starts : List String) {id : String} (unmet : s.mark? id = none)
    (same : path.map Prod.fst = s.ids)
    (linked : (id :: s.ids).IsChain fun below above => below ∈ children above)
    (reached : ∃ r ∈ roots, ReflTransGen (fun a b => b ∈ children a) r id)
    (looked : ∀ lower x k upper, path = lower ++ (x, k) :: upper → ∀ c ∈ (children x).take k,
      s.mark? c = some .done ∨ c = id ∨ c ∈ lower.map Prod.fst)
    (ahead : ∀ x ∈ starts, x ∈ roots)
    (behind : ∀ x ∈ roots, x ∈ starts ∨ x = id ∨ s.mark? x ≠ none) :
    Sound children roots ({ s with path, starts }.enter id) := by
  have marks : ∀ x, ({ s with path, starts }.enter id).mark? x =
      if x = id then some .entered else s.mark? x := mark?_enter _ id
  have names : ({ s with path, starts }.enter id).ids = id :: s.ids := by
    rw [← same]
    rfl
  have off : id ∉ s.ids := by
    intro h
    rw [(sound.entered id).mpr h] at unmet
    cases unmet
  refine ⟨fun x => ?_, ?_, ?_, fun x hx => ?_, fun lower x k upper split c hc => ?_, fun x hx => ?_,
    ahead, fun x hx => ?_⟩
  · rw [marks, names, List.mem_cons]
    by_cases e : x = id
    · simp [e]
    · simp [e, sound.entered x]
  · rw [names]
    exact List.nodup_cons.mpr ⟨off, sound.distinct⟩
  · rw [names]
    exact linked
  · rw [names] at hx
    rcases List.mem_cons.mp hx with rfl | hx
    · exact reached
    · exact sound.reached x hx
  · rw [marks]
    cases lower with
    | nil =>
      -- nothing has been looked at below `id` yet
      obtain ⟨hx, -⟩ := List.cons.inj split
      obtain ⟨rfl, rfl⟩ := Prod.mk.inj hx
      exact absurd hc List.not_mem_nil
    | cons entry lower =>
      obtain ⟨rfl, later⟩ := List.cons.inj split
      rw [List.map_cons, List.mem_cons]
      by_cases e : c = id
      · exact Or.inr (Or.inl e)
      · rw [if_neg e]
        exact looked lower x k upper later c hc
  · rw [marks] at hx
    split at hx
    · cases hx
    · exact sound.done x hx
  · rw [marks]
    rcases behind x hx with hx | rfl | hx
    · exact Or.inl hx
    · simp
    · refine Or.inr ?_
      split
      · simp
      · exact hx

theorem started (sound : Sound children roots s) {id : String} {rest : List String}
    (path : s.path = []) (starts : s.starts = id :: rest) (unmet : s.mark? id = none) :
    Sound children roots ({ s with starts := rest }.enter id) := by
  have empty : s.ids = [] := by rw [ids, path, List.map_nil]
  have root : id ∈ roots := sound.ahead id (starts ▸ List.mem_cons_self)
  refine sound.enters s.path rest unmet rfl (empty ▸ List.isChain_singleton id) ⟨id, root, .refl⟩
    (fun lower x k upper split => ?_) (fun x hx => ?_) fun x hx => ?_
  · rw [path] at split
    cases lower <;> cases split
  · exact sound.ahead x (starts ▸ List.mem_cons_of_mem id hx)
  · have := sound.behind x hx
    rw [starts, List.mem_cons] at this
    exact this.elim (fun h => h.elim (fun e => Or.inr (Or.inl e)) Or.inl) fun h => Or.inr (Or.inr h)

theorem descended (sound : Sound children roots s) {id child : String} {looked : Nat}
    {above : List (String × Nat)} (path : s.path = (id, looked) :: above)
    (look : (children id)[looked]? = some child) (unmet : s.mark? child = none) :
    Sound children roots ({ s with path := (id, looked + 1) :: above }.enter child) := by
  have top : s.ids = id :: above.map Prod.fst := by rw [ids, path, List.map_cons]
  have edge : child ∈ children id := List.mem_of_getElem? look
  obtain ⟨r, hr, way⟩ := sound.reached id (top ▸ List.mem_cons_self)
  have linked : (child :: s.ids).IsChain fun below above => below ∈ children above := by
    have := sound.linked
    rw [top] at this ⊢
    exact List.isChain_cons_cons.mpr ⟨edge, this⟩
  refine sound.enters ((id, looked + 1) :: above) s.starts unmet top.symm linked
    ⟨r, hr, way.tail edge⟩ (fun lower x k upper split c hc => ?_) sound.ahead fun x hx => ?_
  · rcases sound.looked_next path look split hc with (h | h) | ⟨-, h⟩
    · exact Or.inl h
    · exact Or.inr (Or.inr h)
    · exact Or.inr (Or.inl h)
  · exact (sound.behind x hx).imp_right Or.inr

theorem left (sound : Sound children roots s) {id : String} {looked : Nat}
    {above : List (String × Nat)} (path : s.path = (id, looked) :: above)
    (spent : (children id)[looked]? = none) : Sound children roots (s.leave id above) := by
  have top : s.ids = id :: above.map Prod.fst := by rw [ids, path, List.map_cons]
  have marks : ∀ x, (s.leave id above).mark? x = if x = id then some .done else s.mark? x :=
    fun x => mark?_leave s id x above
  obtain ⟨off, distinct⟩ := List.nodup_cons.mp (top ▸ sound.distinct)
  -- all children have been looked at, and nothing is below `id` on the path
  have children_done : ∀ c ∈ children id, s.mark? c = some .done := by
    intro c hc
    have all : (children id).take looked = children id :=
      List.take_of_length_le (List.getElem?_eq_none_iff.mp spent)
    rcases sound.looked [] id looked above path c (all.symm ▸ hc) with h | h
    · exact h
    · exact absurd h List.not_mem_nil
  refine ⟨fun x => ?_, distinct, ?_, fun x hx => ?_, fun lower x k upper split c hc => ?_,
    fun x hx => ?_, sound.ahead, fun x hx => ?_⟩
  · show _ ↔ x ∈ above.map Prod.fst
    rw [marks]
    by_cases e : x = id
    · subst e
      rw [if_pos rfl]
      exact iff_of_false (by simp) off
    · rw [if_neg e, sound.entered x, top, List.mem_cons]
      exact or_iff_right e
  · have linked := sound.linked
    rw [top] at linked
    exact linked.tail
  · exact sound.reached x (top ▸ List.mem_cons_of_mem id hx)
  · rw [marks]
    have split' : s.path = ((id, looked) :: lower) ++ (x, k) :: upper := by
      rw [path]
      exact congrArg ((id, looked) :: ·) split
    have := sound.looked _ x k upper split' c hc
    rw [List.map_cons, List.mem_cons] at this
    by_cases e : c = id
    · exact Or.inl (if_pos e)
    · rw [if_neg e]
      exact this.imp_right fun h => h.resolve_left e
  · rw [marks] at hx
    by_cases e : x = id
    · rw [e]
      exact Acc.intro id fun c hc => sound.done c (children_done c hc)
    · rw [if_neg e] at hx
      exact sound.done x hx
  · rw [marks]
    refine (sound.behind x hx).imp_right fun h => ?_
    split
    · simp
    · exact h

/-- **A step keeps the meaning of the marks.** -/
theorem step (sound : Sound children roots s) {next : Search}
    (h : s.step children = .next next) : Sound children roots next := by
  have steps := steps_step children s
  rw [h] at steps
  cases steps with
  | skip path starts met => exact sound.skipped starts met
  | start path starts unmet => exact sound.started path starts unmet
  | leave path spent => exact sound.left path spent
  | pass path look done => exact sound.passed path look done
  | descend path look unmet => exact sound.descended path look unmet

/-- **At the end every start is accessible.** -/
theorem finished (sound : Sound children roots s) (h : s.step children = .finished) {id : String}
    (hid : id ∈ roots) : Acc (fun b a => b ∈ children a) id := by
  have steps := steps_step children s
  rw [h] at steps
  cases steps with
  | finish path starts =>
    rcases sound.behind id hid with hs | hm
    · rw [starts] at hs
      exact absurd hs List.not_mem_nil
    · cases mark : s.mark? id with
      | none => exact absurd mark hm
      | some m =>
        cases m with
        | done => exact sound.done id mark
        | entered =>
          have := (sound.entered id).mp mark
          rw [ids, path] at this
          exact absurd this List.not_mem_nil

end Sound

/-! ## 6. The search ends -/

/-- What the ids on a path have to spend: a step for each child not looked at, and one to be
    left. -/
def pathCost (children : String → List String) : List (String × Nat) → Nat
  | [] => 0
  | (id, looked) :: above => (children id).length - looked + 1 + pathCost children above

theorem pathCost_cons (id : String) (looked : Nat) (above : List (String × Nat)) :
    pathCost children ((id, looked) :: above) =
      (children id).length - looked + 1 + pathCost children above := rfl

/-- What is set aside for the ids that have not been met. -/
def aside (children : String → List String) (all : Finset String) (s : Search) : Nat :=
  ∑ id ∈ all with s.mark? id = none, ((children id).length + 1)

/-- What there is to spend, with a step for each start that is left. -/
def cost (children : String → List String) (all : Finset String) (s : Search) : Nat :=
  s.starts.length + pathCost children s.path + aside children all s

section Cost

variable {all : Finset String}

theorem aside_enter {id : String} (mem : id ∈ all) (unmet : s.mark? id = none) :
    aside children all (s.enter id) + ((children id).length + 1) = aside children all s := by
  have met : (all.filter fun x => (s.enter id).mark? x = none) =
      (all.filter fun x => s.mark? x = none).erase id := by
    ext x
    by_cases e : x = id <;> simp [mark?_enter, e]
  unfold aside
  rw [met]
  exact Finset.sum_erase_add _ _ (Finset.mem_filter.mpr ⟨mem, unmet⟩)

theorem aside_leave {id : String} (met : s.mark? id ≠ none) (above : List (String × Nat)) :
    aside children all (s.leave id above) = aside children all s := by
  have unmet : (all.filter fun x => (s.leave id above).mark? x = none) =
      all.filter fun x => s.mark? x = none := by
    refine Finset.filter_congr fun x _ => ?_
    by_cases e : x = id <;> simp [mark?_leave, e, met]
  unfold aside
  rw [unmet]

/-- An id that is entered brings to the path what was set aside for it. -/
theorem cost_enter {id : String} (mem : id ∈ all) (unmet : s.mark? id = none) :
    cost children all (s.enter id) = cost children all s := by
  have moved : aside children all (s.enter id) + ((children id).length + 1) =
      aside children all s := aside_enter mem unmet
  show s.starts.length + pathCost children ((id, 0) :: s.path) + aside children all (s.enter id) =
    s.starts.length + pathCost children s.path + aside children all s
  rw [pathCost_cons]
  omega

/-- **Every step spends one.** -/
theorem cost_step (sound : Sound children roots s) (closed : ∀ a, ∀ c ∈ children a, c ∈ all)
    (begun : ∀ r ∈ roots, r ∈ all) {next : Search} (h : s.step children = .next next) :
    cost children all next + 1 = cost children all s := by
  -- the path gets shorter by what is looked at
  have looks : ∀ {id child looked above}, s.path = (id, looked) :: above →
      (children id)[looked]? = some child →
      cost children all { s with path := (id, looked + 1) :: above } + 1 = cost children all s := by
    intro id child looked above path look
    have lt : looked < (children id).length := (List.getElem?_eq_some_iff.mp look).1
    show s.starts.length + pathCost children ((id, looked + 1) :: above) +
      aside children all s + 1 = cost children all s
    rw [cost, path, pathCost_cons, pathCost_cons]
    omega
  have begins : ∀ {id rest}, s.starts = id :: rest →
      cost children all { s with starts := rest } + 1 = cost children all s := by
    intro id rest starts
    show rest.length + pathCost children s.path + aside children all s + 1 = cost children all s
    rw [cost, starts, List.length_cons]
    omega
  have steps := steps_step children s
  rw [h] at steps
  cases steps with
  | skip path starts met => exact begins starts
  | @start id rest path starts unmet =>
    have mem : id ∈ all := begun id (sound.ahead id (starts ▸ List.mem_cons_self))
    have entered : cost children all ({ s with starts := rest }.enter id) =
        cost children all { s with starts := rest } := cost_enter mem unmet
    rw [entered]
    exact begins starts
  | @leave id looked above path spent =>
    have entered : s.mark? id = some .entered :=
      (sound.entered id).mpr (by rw [ids, path]; exact List.mem_cons_self)
    have none_left : (children id).length ≤ looked := List.getElem?_eq_none_iff.mp spent
    show s.starts.length + pathCost children above + aside children all (s.leave id above) + 1 =
      cost children all s
    rw [aside_leave (by simp [entered]), cost, path, pathCost_cons]
    omega
  | pass path look done => exact looks path look
  | @descend id child looked above path look unmet =>
    have mem : child ∈ all := closed id child (List.mem_of_getElem? look)
    have entered : cost children all ({ s with path := (id, looked + 1) :: above }.enter child) =
        cost children all { s with path := (id, looked + 1) :: above } := cost_enter mem unmet
    rw [entered]
    exact looks path look

/-- **What a search comes to**, if it may make enough steps: a cycle that can be reached from a
    start, or the certainty that there is none. -/
theorem run_outcome (closed : ∀ a, ∀ c ∈ children a, c ∈ all) (begun : ∀ r ∈ roots, r ∈ all) :
    ∀ {steps : Nat} {s : Search}, Sound children roots s → cost children all s < steps →
      (s.run children steps = .finished ∧ ∀ r ∈ roots, Acc (fun b a => b ∈ children a) r) ∨
      ∃ id, s.run children steps = .cycle id ∧ TransGen (fun a b => b ∈ children a) id id ∧
        ∃ r ∈ roots, ReflTransGen (fun a b => b ∈ children a) r id
  | steps + 1, s, sound, enough => by
      unfold run
      cases turn : s.step children with
      | next later =>
        have spent := cost_step sound closed begun turn
        exact run_outcome closed begun (sound.step turn) (by omega)
      | finished => exact Or.inl ⟨rfl, fun r hr => sound.finished turn hr⟩
      | cycle id =>
        have steps := steps_step children s
        rw [turn] at steps
        cases steps with
        | meet path look entered => exact Or.inr ⟨id, rfl, sound.cycle path look entered⟩

end Cost

end Runs

/-- A search that is over stays so, however many steps it may make. -/
theorem run_of_le {children : String → List String} : ∀ {few many : Nat} {s : Search},
    (∀ later, s.run children few ≠ .next later) → few ≤ many →
      s.run children many = s.run children few
  | 0, _, s, ended, _ => absurd rfl (ended s)
  | few + 1, many + 1, s, ended, h => by
      unfold run at ended ⊢
      cases turn : s.step children with
      | next later =>
        rw [turn] at ended
        exact run_of_le ended (Nat.le_of_succ_le_succ h)
      | cycle id => rfl
      | finished => rfl

end Search

/-! ## 7. Diagrams -/

/-- Every containing edge belongs to one id at most. -/
theorem sum_children_le (all : Finset String) (es : List Edge) :
    ∑ id ∈ all, (es.filter fun e => e.source == id).length ≤ es.length := by
  induction es with
  | nil => simp
  | cons e es ih =>
    have one : ∑ id ∈ all, (if e.source = id then 1 else 0) ≤ 1 := by
      rw [Finset.sum_ite_eq]
      split <;> omega
    have split : ∀ id, ((e :: es).filter fun e => e.source == id).length =
        (es.filter fun e => e.source == id).length + if e.source = id then 1 else 0 := by
      intro id
      by_cases h : e.source = id <;> simp [h]
    simp only [split, Finset.sum_add_distrib, List.length_cons]
    omega

/-- The ids that a search can meet. -/
def allIds (g : Graph) : Finset String := (g.nodeIds ++ g.containsEdges.map Edge.target).toFinset

theorem mem_allIds_of_child {g : Graph} (a : String) : ∀ c ∈ g.childIds a, c ∈ g.allIds := by
  intro c hc
  obtain ⟨e, he, -, rfl⟩ := mem_childIds.mp hc
  exact List.mem_toFinset.mpr (List.mem_append_right _ (List.mem_map_of_mem he))

theorem mem_allIds_of_node {g : Graph} : ∀ id ∈ g.nodeIds, id ∈ g.allIds :=
  fun _ hid => List.mem_toFinset.mpr (List.mem_append_left _ hid)

/-- **The bound on the steps is never what ends a search.** -/
theorem cost_lt_searchBound (g : Graph) :
    Search.cost g.childIds g.allIds { starts := g.nodeIds } < g.searchBound := by
  have edges : g.containsEdges.length ≤ g.edges.length := List.length_filter_le _ _
  have unmet : (g.allIds.filter fun id => ({ starts := g.nodeIds } : Search).mark? id = none) =
      g.allIds := Finset.filter_true_of_mem fun _ _ => rfl
  have size : g.allIds.card ≤ g.nodes.length + g.containsEdges.length := by
    have := List.toFinset_card_le (g.nodeIds ++ g.containsEdges.map Edge.target)
    rwa [List.length_append, List.length_map, nodeIds, List.length_map] at this
  have children : ∑ id ∈ g.allIds, (g.childIds id).length ≤ g.containsEdges.length := by
    simpa [childIds] using sum_children_le g.allIds g.containsEdges
  have aside : Search.aside g.childIds g.allIds { starts := g.nodeIds } ≤
      2 * g.containsEdges.length + g.nodes.length := by
    unfold Search.aside
    rw [unmet, Finset.sum_add_distrib, ← Finset.card_eq_sum_ones]
    omega
  have starts : g.nodeIds.length = g.nodes.length := List.length_map _
  show g.nodeIds.length + 0 + Search.aside g.childIds g.allIds _ < g.searchBound
  unfold searchBound
  omega

/-- **What the search of a diagram comes to.** -/
theorem containsCycle?_outcome (g : Graph) :
    (Search.run g.childIds g.searchBound { starts := g.nodeIds } = .finished ∧
      ∀ id ∈ g.nodeIds, Acc (fun b a => g.Encloses a b) id) ∨
    ∃ id, Search.run g.childIds g.searchBound { starts := g.nodeIds } = .cycle id ∧
      TransGen g.Encloses id id ∧ ∃ r ∈ g.nodeIds, ReflTransGen g.Encloses r id := by
  have relation : (fun a b => b ∈ g.childIds a) = g.Encloses := by
    funext a b
    exact propext mem_childIds
  have outcome := Search.run_outcome mem_allIds_of_child mem_allIds_of_node
    (Search.sound_start g.childIds g.nodeIds) (cost_lt_searchBound g)
  rw [relation] at outcome
  simpa only [mem_childIds] using outcome

/-- No cycle is reached from an id from which every way down ends. -/
theorem not_cycle_of_acc {g : Graph} {r id : String} (h : Acc (fun b a => g.Encloses a b) r)
    (way : ReflTransGen g.Encloses r id) : ¬ TransGen g.Encloses id id := by
  intro cycle
  exact not_transGen_self_of_acc h (Relation.reflTransGen_swap.mpr way)
    (Relation.transGen_swap.mpr cycle)

/-- **The search for a cycle is exact.** It comes to an end, and more steps would not change it. It
    finds nothing exactly if no cycle of containment can be reached from the id of a node, and what
    it finds lies on a cycle. -/
theorem cycle_search_exact (g : Graph) :
    (∃ turn, (∀ s, turn ≠ .next s) ∧ ∀ steps, g.searchBound ≤ steps →
      Search.run g.childIds steps { starts := g.nodeIds } = turn) ∧
    (g.containsCycle? = none ↔ ∀ n ∈ g.nodes, ∀ id, ReflTransGen g.Encloses n.id id →
      ¬ TransGen g.Encloses id id) ∧
    ∀ id, g.containsCycle? = some id → TransGen g.Encloses id id := by
  have ends : ∀ turn, (∀ s, turn ≠ .next s) →
      Search.run g.childIds g.searchBound { starts := g.nodeIds } = turn →
      ∀ steps, g.searchBound ≤ steps →
        Search.run g.childIds steps { starts := g.nodeIds } = turn := by
    rintro turn ended rfl steps enough
    exact Search.run_of_le ended enough
  rcases containsCycle?_outcome g with ⟨run, acc⟩ | ⟨id, run, cycle, r, hr, way⟩
  · have found : g.containsCycle? = none := by rw [containsCycle?, run]
    refine ⟨⟨.finished, by simp, ends _ (by simp) run⟩, ?_, by simp [found]⟩
    refine iff_of_true found fun n hn id way => ?_
    exact not_cycle_of_acc (acc n.id (List.mem_map_of_mem hn)) way
  · have found : g.containsCycle? = some id := by rw [containsCycle?, run]
    refine ⟨⟨.cycle id, by simp, ends _ (by simp) run⟩, ?_, fun x hx => ?_⟩
    · obtain ⟨n, hn, rfl⟩ := List.mem_map.mp hr
      exact iff_of_false (by simp [found]) fun none => none n hn id way cycle
    · rw [found] at hx
      exact Option.some.inj hx ▸ cycle

end Graph

end InfraDiagram
