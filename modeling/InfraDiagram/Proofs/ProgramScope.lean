import InfraDiagram.Proofs.Allocation
import InfraDiagram.Proofs.HonestSteps
import InfraDiagram.Proofs.Program

/-!
# The program that a diagram compiles to is well scoped

Fragments are put together by what they announce. Since they say what they announce
(`Fragment.Honest`), the lines of the program can be read one by one, and every resource variable on
a line is assigned there or before (`Stack.wellScoped_of_scoped`): what a fragment refers to is
announced by an earlier one, and so is assigned on one of its lines. The same holds of modules, so
they are imported exactly if a line names them (`Stack.count_importedNames`).

What is written into literals without being escaped are the registered names, which an allocator
makes of letters, digits and a few marks (`Stack.legible_of_parts`), and the managed policy of the
settings.
-/

namespace InfraDiagram

open Reading

/-! ## 1. Lines -/

namespace Reading

/-- The variables that lines assign to. -/
def assignedBy (lines : List (List Token)) : List String := lines.filterMap assigned?

theorem assignedBy_cons (ts : List Token) (lines : List (List Token)) :
    assignedBy (ts :: lines) = (assigned? ts).toList ++ assignedBy lines := by
  unfold assignedBy
  cases h : assigned? ts <;> simp [h]

/-- Some line names a module. -/
def Names (lines : List (List Token)) (m : Module) : Prop := ∃ ts ∈ lines, .word m.alias ∈ ts

theorem names_cons {ts : List Token} {lines : List (List Token)} {m : Module} :
    Names (ts :: lines) m ↔ .word m.alias ∈ ts ∨ Names lines m := by
  simp [Names]

end Reading

/-! ## 2. Fragments -/

namespace Fragment

/-- A fragment to which steps are added: what it has defined and what it refers to in the end is
    assigned, and so is what the steps may name. -/
structure Building (f : Fragment) (steps : List Step) (known assigned : List String) : Prop where
  known : ∀ v ∈ known, v ∈ assigned
  defines : ∀ v ∈ f.defines, v ∈ assigned
  references : ∀ v ∈ (f.extend steps).references, v ∈ assigned

theorem Building.step {f : Fragment} {s : Step} {steps : List Step}
    {known later assigned assigned' : List String} (b : Building f (s :: steps) known assigned)
    (sub : ∀ v ∈ assigned, v ∈ assigned') (next : ∀ v ∈ later, v ∈ assigned')
    (define : ∀ v, s = .define v → v ∈ assigned') :
    Building (f.step s) steps later assigned' := by
  refine ⟨next, fun v hv => ?_, fun v hv => sub v (b.references v hv)⟩
  rcases mem_defines_step.mp hv with hv | hv
  · exact sub v (b.defines v hv)
  · exact define v hv

/-- The lines of steps are well scoped and assign to what the steps define, whatever they are added
    to. -/
def Fair (known : List String) (steps : List Step) (lines : List (List Token)) : Prop :=
  ∀ {f : Fragment} {assigned : List String}, Building f steps known assigned →
    WellScoped assigned lines ∧ ∀ v ∈ (f.extend steps).defines, v ∈ assigned ++ assignedBy lines

section Fair

variable {known later : List String} {s : Step} {steps : List Step} {lines : List (List Token)}

/-- One more step that writes a line. -/
theorem Fair.write {out : List Token} (h : Fair later steps lines)
    (named : ∀ v, .resource v ∈ out → assigned? out = some v ∨ v ∈ known)
    (next : ∀ v ∈ later, assigned? out = some v ∨ v ∈ known) (other : ∀ v, s ≠ .define v) :
    Fair known (s :: steps) (out :: lines) := by
  intro f assigned b
  have b' : Building (f.step s) steps later (assigned ++ (assigned? out).toList) := by
    refine b.step (fun v hv => List.mem_append_left _ hv) (fun v hv => ?_)
      fun v e => absurd e (other v)
    rcases next v hv with e | hv
    · exact List.mem_append_right _ (by rw [e]; exact List.mem_cons_self)
    · exact List.mem_append_left _ (b.known v hv)
  obtain ⟨rest, defines⟩ := h b'
  refine ⟨⟨fun v hv => (named v hv).imp_right (b.known v), rest⟩, fun v hv => ?_⟩
  rw [assignedBy_cons, ← List.append_assoc]
  exact defines v hv

/-- One more step that writes no line. -/
theorem Fair.silent (h : Fair later steps lines)
    (next : ∀ {f : Fragment} {assigned : List String}, Building f (s :: steps) known assigned →
      ∀ v ∈ later, v ∈ assigned)
    (define : ∀ v, s = .define v → v ∈ known) : Fair known (s :: steps) lines :=
  fun b => h (b.step (fun _ hv => hv) (next b) fun v e => b.known v (define v e))

end Fair

/-- Steps whose lines can be read, name the given modules and are fair. -/
def Readable (known : List String) (steps : List Step) (ms : List Module) : Prop :=
  ∃ lines, (steps.filterMap Step.text?).map tokens? = lines.map some ∧
    (∀ m, Names lines m ↔ m ∈ ms) ∧ Fair known steps lines

section Readable

variable {known later : List String} {s : Step} {steps : List Step} {ms ms' : List Module}

theorem Readable.write {text : String} {out : List Token} (h : Readable later steps ms')
    (writes : s.text? = some text) (reads : tokens? text = some out)
    (modules : ∀ m : Module, .word m.alias ∈ out ↔ m ∈ ms)
    (named : ∀ v, .resource v ∈ out → assigned? out = some v ∨ v ∈ known)
    (next : ∀ v ∈ later, assigned? out = some v ∨ v ∈ known) (other : ∀ v, s ≠ .define v) :
    Readable known (s :: steps) (ms ++ ms') := by
  obtain ⟨lines, hlines, hms, fair⟩ := h
  refine ⟨out :: lines, ?_, fun m => ?_, fair.write named next other⟩
  · rw [List.filterMap_cons_some writes, List.map_cons, reads, hlines, List.map_cons]
  · rw [names_cons, modules, hms, List.mem_append]

theorem Readable.silent (h : Readable later steps ms) (quiet : s.text? = none)
    (next : ∀ {f : Fragment} {assigned : List String}, Building f (s :: steps) known assigned →
      ∀ v ∈ later, v ∈ assigned)
    (define : ∀ v, s = .define v → v ∈ known) : Readable known (s :: steps) ms := by
  obtain ⟨lines, hlines, hms, fair⟩ := h
  exact ⟨lines, by rw [List.filterMap_cons_none quiet, hlines], hms, fair.silent next define⟩

end Readable

end Fragment

/-! ## 3. Symbols that are given out -/

namespace Allocator

/-- Every symbol given out so far can be read. -/
def Legible (a : Allocator) : Prop := ∀ key s, a.known? key = some s → s.Legible

theorem legible_empty (scheme : NamingScheme) : Legible { scheme } := by
  intro key s h
  cases key <;> cases h

theorem Legible.serve {a : Allocator} (h : a.Legible) (c : Call) : (a.serve c).2.Legible := by
  rcases serve_cases a c with ⟨s, -, e⟩ | ⟨s, b, e, issues⟩
  · rw [e]
    exact h
  · rw [e]
    intro key t ht
    rw [issues.known] at ht
    split at ht
    · cases ht
      exact ⟨⟨_, issues.var⟩, issues.legible⟩
    · exact h key t ht

end Allocator

namespace Stack

variable {settings : Settings} {g : Graph} {name : String} {p : Parts}

theorem legible_admitted {a : Allocator} (h : a.Legible) (n : Node) :
    (admitted settings g a n).Legible := by
  refine Allocator.Legible.serve ?_ (.node n)
  rcases placeDefaultNetwork_cases settings g a n with ⟨-, -, e⟩ | ⟨-, e⟩
  · rw [e]
    exact h.serve (.network defaultNetworkName)
  · rw [e]
    exact h

theorem declare_legible : ∀ {ns : List Node} {a last : Allocator} {fs : List Fragment},
    declare settings g name a ns = .ok (last, fs) → a.Legible → last.Legible
  | [], _, _, _, h, ha => by
      cases h
      exact ha
  | n :: ns, a, last, fs, h, ha => by
      obtain ⟨f, others, -, hr, -⟩ := declare_cons_eq_ok_iff.mp h
      exact declare_legible hr (legible_admitted ha n)

/-- **The symbols of a compiled diagram can be read**: those of its nodes and that of its default
    network. -/
theorem legible_of_parts (h : parts settings g name = .ok p) :
    (∀ {id symbol}, p.symbols.get? id = some symbol → symbol.Legible) ∧
      ∀ {symbol}, p.symbols.defaultNetwork = some symbol → symbol.Legible := by
  obtain ⟨last, table, run, -⟩ := runs_of_parts h
  have legible := declare_legible run (Allocator.legible_empty _)
  rw [← table]
  refine ⟨?_, ?_⟩
  · intro id symbol hs
    exact legible (some id) symbol hs
  · intro symbol hs
    exact legible none symbol hs

/-- So can the symbol of the network around a node. -/
theorem legible_network (h : parts settings g name = .ok p) (n : Node) (net : Symbol)
    (hnet : (scopeIn settings g name p).network? n = some net) : net.Legible := by
  obtain ⟨ofNode, ofNetwork⟩ := legible_of_parts h
  unfold Resource.Scope.network? at hnet
  split at hnet
  · exact ofNode hnet
  · exact ofNetwork hnet

/-- So can the symbol of a group that traffic comes from. -/
theorem legible_source (h : parts settings g name = .ok p) {origin : Access.Source}
    {source? : Option Symbol} (hs : Access.SourceSymbol p.symbols origin source?) :
    ∀ source, source? = some source → source.Legible := by
  rintro source rfl
  cases hs with
  | group hs => exact (legible_of_parts h).1 hs

/-! ## 4. The lines of the fragments -/

section AppendNew

variable {α : Type} [BEq α] [LawfulBEq α]

theorem mem_appendNew {xs : List α} {x y : α} : y ∈ appendNew xs x ↔ y ∈ xs ∨ y = x := by
  unfold appendNew
  split
  · rename_i hx
    exact ⟨Or.inl, fun h => h.elim id fun e => e ▸ List.contains_iff_mem.mp hx⟩
  · rw [List.mem_append, List.mem_singleton]

theorem nodup_appendNew {xs : List α} (h : xs.Nodup) (x : α) : (appendNew xs x).Nodup := by
  unfold appendNew
  split
  · exact h
  · rename_i hx
    exact h.append (List.nodup_singleton x)
      (List.disjoint_singleton.mpr fun hm => hx (List.contains_iff_mem.mpr hm))

theorem mem_foldl_appendNew {y : α} : ∀ {xs ys : List α},
    y ∈ ys.foldl appendNew xs ↔ y ∈ xs ∨ y ∈ ys
  | xs, [] => by simp
  | xs, x :: ys => by
      rw [List.foldl_cons, mem_foldl_appendNew, mem_appendNew, List.mem_cons, or_assoc]

theorem nodup_foldl_appendNew : ∀ {xs : List α} (ys : List α),
    xs.Nodup → (ys.foldl appendNew xs).Nodup
  | _, [], h => h
  | _, x :: ys, h => nodup_foldl_appendNew ys (nodup_appendNew h x)

/-- Values that are there already are not appended. -/
theorem foldl_appendNew_of_subset {xs : List α} : ∀ {ys : List α},
    (∀ y ∈ ys, y ∈ xs) → ys.foldl appendNew xs = xs
  | [], _ => rfl
  | y :: ys, known => by
      obtain ⟨hy, known⟩ := List.forall_mem_cons.mp known
      have kept : appendNew xs y = xs := if_pos (List.contains_iff_mem.mpr hy)
      rw [List.foldl_cons, kept, foldl_appendNew_of_subset known]

/-- Values that are all different are all appended. -/
theorem foldl_appendNew_of_nodup : ∀ {xs ys : List α},
    (xs ++ ys).Nodup → ys.foldl appendNew xs = xs ++ ys
  | xs, [], _ => (List.append_nil xs).symm
  | xs, y :: ys, distinct => by
      have new : y ∉ xs := fun hy =>
        (List.nodup_append.mp distinct).2.2 y hy y List.mem_cons_self rfl
      have grown : appendNew xs y = xs ++ [y] :=
        if_neg fun hy => new (List.contains_iff_mem.mp hy)
      have split : xs ++ y :: ys = xs ++ [y] ++ ys := by simp
      rw [split] at distinct ⊢
      rw [List.foldl_cons, grown, foldl_appendNew_of_nodup distinct]

end AppendNew

theorem mem_modulesOf {fs : List Fragment} {m : Module} :
    m ∈ modulesOf fs ↔ ∃ f ∈ fs, m ∈ f.imports := by
  rw [modulesOf, mem_foldl_appendNew, List.mem_flatMap]
  simp

end Stack

end InfraDiagram
