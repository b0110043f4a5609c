import InfraDiagram.Proofs.TextIsData

/-!
# What the default zone of the settings decides

The zone of a server is written in one place, as that of its machine image, and only if the server
names an image. So the default zone of the settings matters to a server that names an image and no
zone (`Node.AsksZone`), and to nothing else.

Two compilations under different default zones have one outcome, and their programs differ in pieces
of lines only (`parts_withZone`). If they do not differ at all, then neither do their declarations:
the pieces are everywhere the same two texts, so that they can make up for each other neither in
length nor in place (`Text.eq_of_join_eq`). Hence the default zone leaves a compilation as it is
exactly if it fails, or is not asked for, or is written alike (`generateNamed_withZone_eq_iff`).
-/

namespace InfraDiagram

open Literal (escape)

/-! ## 1. Texts that differ in a piece -/

namespace Text

/-- Texts that are the same, or the same but for a piece that is `u` in one and `v` in the other. -/
inductive Swapped (u v : String) : String → String → Prop where
  | same (t : String) : Swapped u v t t
  | piece (lead tail : String) : Swapped u v (lead ++ u ++ tail) (lead ++ v ++ tail)

theorem Swapped.around {u v s t : String} (h : Swapped u v s t) (lead tail : String) :
    Swapped u v (lead ++ s ++ tail) (lead ++ t ++ tail) := by
  cases h with
  | same => exact .same _
  | piece l r =>
    have e : ∀ w, lead ++ (l ++ w ++ r) ++ tail = lead ++ l ++ w ++ (r ++ tail) := by
      intro w
      simp only [String.append_assoc]
    rw [e, e]
    exact .piece _ _

variable {u v : String}

theorem Swapped.length_eq {s t : String} (h : Swapped u v s t) (e : u.length = v.length) :
    s.length = t.length := by
  cases h with
  | same => rfl
  | piece l r => simp only [String.length_append, e]

/-- The pieces that differ can be counted, and make up the difference in length. -/
theorem Swapped.exists_count {ss ts : List String} (h : List.Forall₂ (Swapped u v) ss ts) :
    ∃ k, (k = 0 → ss = ts) ∧
      (String.join ss).length + k * v.length = (String.join ts).length + k * u.length := by
  induction h with
  | nil => exact ⟨0, fun _ => rfl, by omega⟩
  | @cons s t ss ts first _ ih =>
    obtain ⟨k, same, length⟩ := ih
    rw [String.join_cons, String.join_cons, String.length_append, String.length_append]
    cases first with
    | same =>
      exact ⟨k, fun none => by rw [same none], by omega⟩
    | piece lead tail =>
      refine ⟨k + 1, fun none => absurd none (Nat.succ_ne_zero k), ?_⟩
      simp only [String.length_append, Nat.add_mul, Nat.one_mul]
      omega

/-- Texts of the same lengths that are joined to one text are the same. -/
theorem eq_of_join_eq_of_length {ss ts : List String}
    (h : List.Forall₂ (fun s t => s.length = t.length) ss ts)
    (joined : String.join ss = String.join ts) : ss = ts := by
  induction h with
  | nil => rfl
  | @cons s t ss ts first _ ih =>
    rw [String.join_cons, String.join_cons, ← String.toList_inj, String.toList_append,
      String.toList_append] at joined
    obtain ⟨head, rest⟩ := List.append_inj joined first
    rw [String.toList_inj.mp head, ih (String.toList_inj.mp rest)]

/-- **Texts that differ in pieces, and are joined to one text, do not differ.** -/
theorem eq_of_join_eq {ss ts : List String} (h : List.Forall₂ (Swapped u v) ss ts)
    (joined : String.join ss = String.join ts) : ss = ts := by
  obtain ⟨k, same, length⟩ := Swapped.exists_count h
  rw [joined, Nat.add_left_cancel_iff] at length
  by_cases none : k = 0
  · exact same none
  · have e : u.length = v.length := Nat.eq_of_mul_eq_mul_left (Nat.pos_of_ne_zero none) length.symm
    exact eq_of_join_eq_of_length (h.imp fun _ _ swapped => swapped.length_eq e) joined

end Text

/-! ## 2. Fragments that differ in pieces of lines -/

/-- Lines at one place whose texts differ in a piece. -/
def Line.Swapped (u v : String) (l l' : Line) : Prop :=
  l.indent = l'.indent ∧ Text.Swapped u v l.text l'.text

namespace Fragment

/-- Steps that are the same, or write lines that differ in a piece. -/
inductive Step.Swapped (u v : String) : Step → Step → Prop where
  | same (step : Step) : Swapped u v step step
  | line {text text' : String} (h : Text.Swapped u v text text') :
      Swapped u v (.line text) (.line text')

/-- **Fragments that are the same but for pieces of lines.** -/
def Swapped (u v : String) (f f' : Fragment) : Prop :=
  ∃ lines, List.Forall₂ (Line.Swapped u v) f.lines lines ∧ f' = { f with lines }

variable {u v : String}

theorem Swapped.refl (f : Fragment) : Swapped u v f f :=
  ⟨f.lines, List.forall₂_same.mpr fun _ _ => ⟨rfl, .same _⟩, rfl⟩

theorem swapped_steps_refl (steps : List Step) : List.Forall₂ (Step.Swapped u v) steps steps :=
  List.forall₂_same.mpr fun step _ => .same step

theorem Swapped.step {f f' : Fragment} (h : Swapped u v f f') {step step' : Step}
    (hs : Step.Swapped u v step step') : Swapped u v (f.step step) (f'.step step') := by
  obtain ⟨lines, swapped, rfl⟩ := h
  have written : ∀ {text text' : String}, Text.Swapped u v text text' → List.Forall₂
      (Line.Swapped u v) (f.lines ++ [⟨f.depth, text⟩]) (lines ++ [⟨f.depth, text'⟩]) :=
    fun ht => List.rel_append swapped (.cons ⟨rfl, ht⟩ .nil)
  cases hs with
  | line ht => exact ⟨_, written ht, rfl⟩
  | same step =>
    cases step with
    | line text => exact ⟨_, written (.same text), rfl⟩
    | output o => exact ⟨_, written (.same (outputLine o)), rfl⟩
    | indent => exact ⟨lines, swapped, rfl⟩
    | dedent => exact ⟨lines, swapped, rfl⟩
    | use m =>
      simp only [Fragment.step]
      split <;> exact ⟨lines, swapped, rfl⟩
    | define x =>
      simp only [Fragment.step]
      split <;> exact ⟨lines, swapped, rfl⟩
    | reference x =>
      simp only [Fragment.step]
      split <;> exact ⟨lines, swapped, rfl⟩

/-- **Steps that differ in pieces of lines build fragments that do.** -/
theorem swapped_build (origin : Origin) {steps steps' : List Step}
    (h : List.Forall₂ (Step.Swapped u v) steps steps') :
    Swapped u v (build origin steps) (build origin steps') := by
  have run : ∀ {f f' : Fragment}, Swapped u v f f' →
      Swapped u v (f.extend steps) (f'.extend steps') := by
    induction h with
    | nil => exact fun hf => hf
    | cons first _ ih => exact fun hf => ih (hf.step first)
  exact run (.refl _)

end Fragment

/-! ## 3. Programs that differ in pieces of lines -/

namespace Stack

variable {u v : String}

/-- A line of the body as it is in the program. -/
def rendered (l : Line) : String := indented { l with indent := l.indent + 2 }

theorem map_indented_body (fs : List Fragment) :
    (body fs).map indented = fs.flatMap fun f => f.lines.map rendered := by
  unfold body
  rw [List.map_map, List.map_flatMap]
  rfl

theorem rendered_swapped {l l' : Line} (h : Line.Swapped u v l l') :
    Text.Swapped u v (rendered l) (rendered l') := by
  unfold rendered indented
  rw [h.1]
  exact h.2.around _ _

theorem eq_of_rendered_eq {l l' : Line} (indent : l.indent = l'.indent)
    (h : rendered l = rendered l') : l = l' := by
  obtain ⟨i, text⟩ := l
  obtain ⟨i', text'⟩ := l'
  obtain rfl : i = i' := indent
  have cut := congrArg String.toList h
  simp only [rendered, indented, String.toList_append, List.append_cancel_left_eq,
    List.append_cancel_right_eq, String.toList_inj] at cut
  rw [cut]

theorem lines_eq_of_rendered {ls ls' : List Line} (h : List.Forall₂ (Line.Swapped u v) ls ls')
    (e : ls.map rendered = ls'.map rendered) : ls = ls' := by
  induction h with
  | nil => rfl
  | cons first _ ih =>
    obtain ⟨head, rest⟩ := List.cons.inj e
    rw [eq_of_rendered_eq first.1 head, ih rest]

/-- Fragments that differ in pieces of lines are the same, if their lines look the same. -/
theorem fragments_eq_of_rendered {fs fs' : List Fragment}
    (h : List.Forall₂ (Fragment.Swapped u v) fs fs')
    (e : (fs.flatMap fun f => f.lines.map rendered) = fs'.flatMap fun f => f.lines.map rendered) :
    fs = fs' := by
  induction h with
  | nil => rfl
  | @cons f f' fs fs' first _ ih =>
    obtain ⟨lines, swapped, rfl⟩ := first
    rw [List.flatMap_cons, List.flatMap_cons] at e
    have lengths : (f.lines.map rendered).length = (lines.map rendered).length := by
      rw [List.length_map, List.length_map, swapped.length_eq]
    obtain ⟨head, rest⟩ := List.append_inj e lengths
    rw [← lines_eq_of_rendered swapped head, ih rest]

theorem modulesOf_swapped {fs fs' : List Fragment}
    (h : List.Forall₂ (Fragment.Swapped u v) fs fs') : modulesOf fs = modulesOf fs' := by
  unfold modulesOf
  refine congrArg (List.foldl appendNew []) ?_
  induction h with
  | nil => rfl
  | cons first _ ih =>
    obtain ⟨lines, -, rfl⟩ := first
    rw [List.flatMap_cons, List.flatMap_cons, ih]

/-- **Fragments that differ in pieces of lines, and make one program, do not differ.** -/
theorem fragments_eq_of_program {fs fs' : List Fragment} (className stackName : String)
    (h : List.Forall₂ (Fragment.Swapped u v) fs fs')
    (e : program className stackName fs = program className stackName fs') : fs = fs' := by
  have bodies : List.Forall₂ (Text.Swapped u v) (fs.flatMap fun f => f.lines.map rendered)
      (fs'.flatMap fun f => f.lines.map rendered) := by
    clear e
    induction h with
    | nil => exact .nil
    | cons first _ ih =>
      obtain ⟨lines, swapped, rfl⟩ := first
      rw [List.flatMap_cons, List.flatMap_cons]
      refine List.rel_append ?_ ih
      exact List.forall₂_map_left_iff.mpr (List.forall₂_map_right_iff.mpr
        (swapped.imp fun _ _ => rendered_swapped))
  unfold program programLines at e
  rw [modulesOf_swapped h] at e
  simp only [List.map_append, map_indented_body] at e
  have fixed : ∀ texts : List String, List.Forall₂ (Text.Swapped u v) texts texts := fun texts =>
    List.forall₂_same.mpr fun _ _ => .same _
  have lines := Text.eq_of_join_eq
    (List.rel_append (List.rel_append (fixed _) bodies) (fixed _)) e
  exact fragments_eq_of_rendered h
    (List.append_cancel_left (List.append_cancel_right lines))

end Stack

/-! ## 4. Declarations under two default zones -/

/-- The settings with another default zone. -/
def Settings.withZone (settings : Settings) (zone : String) : Settings :=
  { settings with defaultZone := zone }

/-- **A node whose zone is asked for**: a server that names a machine image, but no zone. -/
structure Node.AsksZone (n : Node) : Prop where
  kind : n.kind = .server
  image : ∃ ami, n.text? Property.amiId = .ok (some ami)
  zone : n.text? Property.availabilityZone = .ok none

namespace Resource

open Fragment (Step)

variable {settings : Settings} {symbol net : Symbol}

namespace Server

/-- Under two default zones a server is the same but for its zone, and that only if none is given. -/
theorem ofNode_withZone (settings : Settings) (z z' : String) (n : Node) :
    Outcome.Rel (fun s s' => n.text? Property.amiId = .ok s.ami ∧
        ∃ given, n.text? Property.availabilityZone = .ok given ∧ s.zone = given.getD z ∧
          s' = { s with zone := given.getD z' })
      (ofNode (settings.withZone z) n) (ofNode (settings.withZone z') n) := by
  unfold ofNode
  cases ami : n.text? Property.amiId with
  | error e => exact .error
  | ok image =>
    cases zone : n.text? Property.availabilityZone with
    | error e => exact .error
    | ok given =>
      simp only [Outcome.ok_bind]
      refine (Outcome.Rel.refl _).bind fun {i i'} hi => (Outcome.Rel.refl _).bind fun {d d'} hd =>
        (Outcome.Rel.refl _).bind fun {p p'} hp => .ok ?_
      subst hi hd hp
      exact ⟨rfl, given, rfl, rfl, rfl⟩

/-- The zone of a server is written only with its machine image. -/
theorem machineImage_swapped (s : Server) (zone : String) :
    Text.Swapped (escape s.zone) (escape zone) s.machineImage { s with zone }.machineImage := by
  unfold machineImage
  cases s.ami with
  | none => exact .same _
  | some ami =>
    have e : ∀ w, "ec2.MachineImage.generic_linux(\x7b\"" ++ w ++ "\": \"" ++ escape ami ++
        "\"\x7d)" = "ec2.MachineImage.generic_linux(\x7b\"" ++ w ++
          ("\": \"" ++ escape ami ++ "\"\x7d)") := by
      intro w
      simp only [String.append_assoc]
    simp only [e]
    exact .piece _ _

theorem steps_swapped (s : Server) (zone nodeId : String) (isPublic : Bool) :
    List.Forall₂ (Step.Swapped (escape s.zone) (escape zone))
      (s.steps settings nodeId symbol net isPublic)
      ({ s with zone }.steps settings nodeId symbol net isPublic) := by
  have fixed := @Fragment.swapped_steps_refl (escape s.zone) (escape zone)
  have image : Step.Swapped (escape s.zone) (escape zone)
      (.line ("machine_image=" ++ s.machineImage ++ ","))
      (.line ("machine_image=" ++ { s with zone }.machineImage ++ ",")) :=
    .line ((s.machineImage_swapped zone).around _ _)
  have declared : List.Forall₂ (Step.Swapped (escape s.zone) (escape zone))
      (s.declaration symbol net isPublic) ({ s with zone }.declaration symbol net isPublic) := by
    unfold declaration
    exact List.rel_append (List.rel_append
      (.cons (.same _) <| .cons (.same _) <| .cons (.same _) <| .cons image .nil) (fixed _)) (fixed _)
  rw [steps_eq, steps_eq]
  exact List.rel_append (List.rel_append (List.rel_append (List.rel_append (fixed _) declared)
    (fixed _)) (fixed _)) (fixed _)

/-- The steps of a server tell how its zone is written, if it names an image. -/
theorem escape_zone_of_steps {s : Server} {ami : String} (image : s.ami = some ami) {zone nodeId : String}
    {isPublic : Bool}
    (e : (s.steps settings nodeId symbol net isPublic).filterMap Step.text? =
      ({ s with zone }.steps settings nodeId symbol net isPublic).filterMap Step.text?) :
    escape s.zone = escape zone := by
  rw [steps_eq, steps_eq] at e
  simp only [declaration, List.filterMap_append, List.append_cancel_left_eq,
    List.append_assoc, List.filterMap_cons, Step.text?, List.filterMap_nil, List.cons_append,
    List.nil_append, List.cons.injEq, true_and, and_true] at e
  have chars := congrArg String.toList e
  simp only [machineImage, image, String.toList_append, List.append_assoc,
    List.append_cancel_left_eq, List.append_cancel_right_eq, String.toList_inj] at chars
  exact chars

theorem steps_congr_zone {s : Server} {zone : String}
    (h : s.ami ≠ none → escape s.zone = escape zone) (nodeId : String) (isPublic : Bool) :
    { s with zone }.steps settings nodeId symbol net isPublic =
      s.steps settings nodeId symbol net isPublic := by
  have image : { s with zone }.machineImage = s.machineImage := by
    unfold machineImage
    cases hs : s.ami with
    | none => rfl
    | some ami => rw [h (by rw [hs]; exact Option.some_ne_none ami)]
  rw [steps_eq, steps_eq]
  unfold declaration
  rw [image]

end Server

end Resource

namespace Stack

open Resource

variable {settings : Settings} {g : Graph} {name z z' : String} {t : SymbolTable} {n : Node}

/-- Under two default zones a node is declared by steps that differ in pieces of lines. -/
theorem stepsOf_withZone (settings : Settings) (g : Graph) (name z z' : String) (t : SymbolTable)
    (n : Node) :
    Outcome.Rel (List.Forall₂ (Fragment.Step.Swapped (escape z) (escape z')))
      (stepsOf (scopeOf (settings.withZone z) g name t) n)
      (stepsOf (scopeOf (settings.withZone z') g name t) n) := by
  have fixed := @Fragment.swapped_steps_refl (escape z) (escape z')
  unfold stepsOf
  cases n.kind with
  | server =>
    refine (Server.ofNode_withZone settings z z' n).bind fun {s s'} hs => ?_
    obtain ⟨-, given, -, zone, rfl⟩ := hs
    refine (Outcome.Rel.refl _).bind fun {symbol symbol'} h => ?_
    refine (Outcome.Rel.refl _).bind fun {net net'} h' => .ok ?_
    subst h h'
    cases given with
    | none =>
      obtain rfl : s.zone = z := zone
      exact s.steps_swapped z' n.id _
    | some given =>
      have same : { s with zone := (some given).getD z' } = s := by
        rw [show (some given).getD z' = s.zone from zone.symm]
      rw [same]
      exact fixed _
  | vpc => exact (Outcome.Rel.refl _).bind fun {x y} h => .ok (h ▸ fixed _)
  | database =>
    refine (Outcome.Rel.refl _).bind fun {d d'} hd => (Outcome.Rel.refl _).bind fun {x y} h =>
      (Outcome.Rel.refl _).bind fun {net net'} h' => .ok ?_
    subst hd h h'
    exact fixed _
  | bucket =>
    refine (Outcome.Rel.refl _).bind fun {b b'} hb => (Outcome.Rel.refl _).bind fun {x y} h => .ok ?_
    subst hb h
    exact fixed _

theorem emit_withZone (settings : Settings) (g : Graph) (name z z' : String) (t : SymbolTable)
    (n : Node) :
    Outcome.Rel (Fragment.Swapped (escape z) (escape z'))
      (emit (scopeOf (settings.withZone z) g name t) n)
      (emit (scopeOf (settings.withZone z') g name t) n) :=
  (stepsOf_withZone settings g name z z' t n).map (Fragment.swapped_build (.node n.id))

/-- A node is declared alike, unless its zone is asked for and written differently. -/
theorem emit_congr_zone (h : n.AsksZone → escape z = escape z') :
    emit (scopeOf (settings.withZone z) g name t) n =
      emit (scopeOf (settings.withZone z') g name t) n := by
  have steps : Outcome.Rel Eq (stepsOf (scopeOf (settings.withZone z) g name t) n)
      (stepsOf (scopeOf (settings.withZone z') g name t) n) := by
    unfold stepsOf
    cases kind : n.kind with
    | server =>
      refine (Server.ofNode_withZone settings z z' n).bind fun {s s'} hs => ?_
      obtain ⟨image, given, zone, hz, rfl⟩ := hs
      refine (Outcome.Rel.refl _).bind fun {symbol symbol'} hsymbol => ?_
      refine (Outcome.Rel.refl _).bind fun {net net'} hnet => .ok ?_
      subst hsymbol hnet
      refine (Server.steps_congr_zone (fun hami => ?_) n.id _).symm
      cases given with
      | some given => rw [hz]; rfl
      | none =>
        obtain ⟨ami, hami⟩ := Option.ne_none_iff_exists'.mp hami
        rw [hz]
        exact h ⟨kind, ⟨ami, hami ▸ image⟩, zone⟩
    | vpc => exact Outcome.Rel.refl _
    | database => exact Outcome.Rel.refl _
    | bucket => exact Outcome.Rel.refl _
  unfold emit
  generalize stepsOf (scopeOf (settings.withZone z) g name t) n = x,
    stepsOf (scopeOf (settings.withZone z') g name t) n = y at steps
  cases steps with
  | ok e => rw [e]
  | error => rfl

/-- A declaration tells how a zone that is asked for is written. -/
theorem escape_eq_of_emit {f : Fragment} (asks : n.AsksZone)
    (h : emit (scopeOf (settings.withZone z) g name t) n = .ok f)
    (h' : emit (scopeOf (settings.withZone z') g name t) n = .ok f) : escape z = escape z' := by
  obtain ⟨ami, image⟩ := asks.image
  obtain ⟨steps, hs, rfl⟩ := Outcome.map_eq_ok.mp h
  obtain ⟨steps', hs', built⟩ := Outcome.map_eq_ok.mp h'
  have texts : steps'.filterMap Fragment.Step.text? = steps.filterMap Fragment.Step.text? := by
    rw [← Fragment.texts_build (.node n.id), built, Fragment.texts_build]
  unfold stepsOf at hs hs'
  rw [asks.kind] at hs hs'
  obtain ⟨s, server, hs⟩ := Outcome.bind_eq_ok.mp hs
  obtain ⟨s', server', hs'⟩ := Outcome.bind_eq_ok.mp hs'
  obtain ⟨symbol, hsymbol, hs⟩ := Outcome.bind_eq_ok.mp hs
  obtain ⟨symbol', hsymbol', hs'⟩ := Outcome.bind_eq_ok.mp hs'
  obtain ⟨net, hnet, hs⟩ := Outcome.bind_eq_ok.mp hs
  obtain ⟨net', hnet', hs'⟩ := Outcome.bind_eq_ok.mp hs'
  cases hsymbol.symm.trans hsymbol'
  cases hnet.symm.trans hnet'
  cases hs
  cases hs'
  -- both servers come from the same properties
  have both := Server.ofNode_withZone settings z z' n
  have served : Server.ofNode (settings.withZone z) n = .ok s := server
  have served' : Server.ofNode (settings.withZone z') n = .ok s' := server'
  rw [served, served'] at both
  cases both with
  | ok both =>
    obtain ⟨named, given, zone, hz, rfl⟩ := both
    cases asks.zone.symm.trans zone
    obtain rfl : s.zone = z := hz
    exact Server.escape_zone_of_steps (Except.ok.inj (named.symm.trans image)) texts.symm

/-! ## 5. Compilations under two default zones -/

/-- **Two runs under two default zones have one outcome, and differ in pieces of lines.** -/
theorem declare_withZone (settings : Settings) (g : Graph) (name z z' : String) :
    ∀ (ns : List Node) (a : Allocator),
      Outcome.Rel (fun r r' => r.1 = r'.1 ∧
          List.Forall₂ (Fragment.Swapped (escape z) (escape z')) r.2 r'.2)
        (declare (settings.withZone z) g name a ns) (declare (settings.withZone z') g name a ns)
  | [], a => .ok ⟨rfl, .nil⟩
  | n :: ns, a => by
      have fixed : ∀ fs : List Fragment,
          List.Forall₂ (Fragment.Swapped (escape z) (escape z')) fs fs := fun fs =>
        List.forall₂_same.mpr fun f _ => .refl f
      rw [declare_cons, declare_cons]
      refine (emit_withZone settings g name z z' _ n).bind fun first =>
        (declare_withZone settings g name z z' ns _).bind fun {r r'} rest => .ok ⟨rest.1, ?_⟩
      exact List.rel_append (fixed _) (.cons first rest.2)

theorem declare_congr_zone : ∀ {ns : List Node} (a : Allocator),
    (∀ n ∈ ns, n.AsksZone → escape z = escape z') →
      declare (settings.withZone z) g name a ns = declare (settings.withZone z') g name a ns
  | [], _, _ => rfl
  | n :: ns, a, h => by
      obtain ⟨first, rest⟩ := List.forall_mem_cons.mp h
      rw [declare_cons, declare_cons, emit_congr_zone first]
      exact congrArg _ (funext fun f => congrArg (· >>= _) (declare_congr_zone _ rest))

/-- If two runs under two default zones give the same, each node is declared alike. -/
theorem emit_eq_of_declare_eq : ∀ {ns : List Node} {a : Allocator} {r : Allocator × List Fragment},
    declare (settings.withZone z) g name a ns = .ok r →
    declare (settings.withZone z') g name a ns = .ok r →
    ∀ n ∈ ns, ∃ t f, emit (scopeOf (settings.withZone z) g name t) n = .ok f ∧
      emit (scopeOf (settings.withZone z') g name t) n = .ok f
  | [], _, _, _, _ => List.forall_mem_nil _
  | n :: ns, a, r, h, h' => by
      obtain ⟨last, fs⟩ := r
      obtain ⟨f, others, hf, hr, rfl⟩ := declare_cons_eq_ok_iff.mp h
      obtain ⟨f', others', hf', hr', e⟩ := declare_cons_eq_ok_iff.mp h'
      obtain ⟨rfl, rfl⟩ := List.cons.inj (List.append_cancel_left e)
      exact List.forall_mem_cons.mpr ⟨⟨_, f, hf, hf'⟩, emit_eq_of_declare_eq hr hr'⟩

/-- **Two compilations under two default zones have one outcome, and differ in pieces of lines.** -/
theorem parts_withZone (settings : Settings) (g : Graph) (name z z' : String) :
    Outcome.Rel (fun p p' => p.order = p'.order ∧ p.symbols = p'.symbols ∧ p.rules = p'.rules ∧
        List.Forall₂ (Fragment.Swapped (escape z) (escape z')) p.declarations p'.declarations)
      (parts (settings.withZone z) g name) (parts (settings.withZone z') g name) := by
  unfold parts
  refine (Outcome.Rel.refl _).bind fun _ => (Outcome.Rel.refl _).bind fun {ns ns'} hns => ?_
  subst hns
  refine (declare_withZone settings g name z z' ns _).bind fun {r r'} hr => ?_
  obtain ⟨a, declarations⟩ := r
  obtain ⟨a', declarations'⟩ := r'
  obtain ⟨rfl, swapped⟩ := hr
  refine (Outcome.Rel.refl _).bind fun {rules rules'} hrules => .ok ?_
  exact ⟨rfl, rfl, hrules, swapped⟩

theorem parts_congr_zone {p : Parts} (hp : parts (settings.withZone z) g name = .ok p)
    (h : ∀ n ∈ g.nodes, n.AsksZone → escape z = escape z') :
    parts (settings.withZone z') g name = .ok p := by
  have c := compiled_of_parts hp
  have asked : ∀ n ∈ p.order, n.AsksZone → escape z = escape z' := fun n hn =>
    h n (c.mem_order.mp hn)
  rw [← hp]
  unfold parts
  rw [c.ordered]
  simp only [Outcome.ok_bind]
  rw [declare_congr_zone _ asked]
  rfl

/-- If two compilations under two default zones give the same parts, the zones are written alike,
    or not asked for. -/
theorem escape_eq_of_parts {p : Parts} (hp : parts (settings.withZone z) g name = .ok p)
    (hp' : parts (settings.withZone z') g name = .ok p) :
    ∀ n ∈ g.nodes, n.AsksZone → escape z = escape z' := by
  intro n hn asks
  have c := compiled_of_parts hp
  obtain ⟨⟨⟩, -, h⟩ := Outcome.bind_eq_ok.mp hp
  obtain ⟨ns, hns, h⟩ := Outcome.bind_eq_ok.mp h
  obtain ⟨r, run, h⟩ := Outcome.bind_eq_ok.mp h
  obtain ⟨rules, -, h⟩ := Outcome.bind_eq_ok.mp h
  obtain ⟨⟨⟩, -, h'⟩ := Outcome.bind_eq_ok.mp hp'
  obtain ⟨ns', hns', h'⟩ := Outcome.bind_eq_ok.mp h'
  obtain ⟨r', run', h'⟩ := Outcome.bind_eq_ok.mp h'
  obtain ⟨rules', -, h'⟩ := Outcome.bind_eq_ok.mp h'
  cases hns.symm.trans hns'
  obtain rfl : Parts.mk ns r.1.table r.2 rules = p := Except.ok.inj h
  obtain ⟨-, -, declarations, -⟩ := Parts.mk.inj (Except.ok.inj h')
  have last := declare_withZone settings g name z z' ns { scheme := settings.naming }
  have ran : declare (settings.withZone z) g name { scheme := settings.naming } ns = .ok r := run
  have ran' : declare (settings.withZone z') g name { scheme := settings.naming } ns = .ok r' := run'
  rw [ran, ran'] at last
  cases last with
  | ok last =>
    have same : r' = r := Prod.ext last.1.symm declarations
    obtain ⟨t, f, hf, hf'⟩ := emit_eq_of_declare_eq ran (same ▸ ran') n (c.mem_order.mpr hn)
    exact escape_eq_of_emit asks hf hf'

/-- **What the default zone decides**: two compilations under two default zones are the same exactly
    if they fail, or the zones are written alike, or no server asks for one. -/
theorem generateNamed_withZone_eq_iff (settings : Settings) (g : Graph) (name z z' : String) :
    generateNamed (settings.withZone z) g name = generateNamed (settings.withZone z') g name ↔
      (∀ stack, generateNamed (settings.withZone z) g name ≠ .ok stack) ∨ escape z = escape z' ∨
        ∀ n ∈ g.nodes, ¬ n.AsksZone := by
  have related := parts_withZone settings g name z z'
  rw [generateNamed_eq_map, generateNamed_eq_map]
  cases hp : parts (settings.withZone z) g name with
  | error e =>
    generalize parts (settings.withZone z') g name = x at related
    rw [hp] at related
    cases related
    exact iff_of_true rfl (Or.inl fun stack h => by cases h)
  | ok p =>
    constructor
    · intro same
      obtain ⟨p', hp', stack⟩ := Outcome.map_eq_ok.mp same.symm
      rw [hp, hp'] at related
      cases related with
      | ok related =>
        obtain ⟨order, symbols, rules, swapped⟩ := related
        -- equal programs have equal fragments, so that the parts are the same
        have all : List.Forall₂ (Fragment.Swapped (escape z) (escape z')) p.fragments
            p'.fragments := by
          unfold Parts.fragments
          rw [rules]
          exact List.rel_append swapped (List.forall₂_same.mpr fun f _ => .refl f)
        have fragments : p.fragments = p'.fragments :=
          fragments_eq_of_program settings.stackClass name all (congrArg Stack.source stack).symm
        have declarations : p.declarations = p'.declarations :=
          (List.append_inj fragments swapped.length_eq).1
        have parts_eq : p' = p := by
          obtain ⟨o, s, d, r⟩ := p
          obtain ⟨o', s', d', r'⟩ := p'
          simp only at order symbols declarations rules
          rw [order, symbols, declarations, rules]
        rw [parts_eq] at hp'
        have asked := escape_eq_of_parts hp hp'
        by_cases alike : escape z = escape z'
        · exact Or.inr (Or.inl alike)
        · exact Or.inr (Or.inr fun n hn asks => alike (asked n hn asks))
    · intro h
      have asked : ∀ n ∈ g.nodes, n.AsksZone → escape z = escape z' := by
        rcases h with fails | alike | unasked
        · exact absurd rfl (fails _)
        · exact fun _ _ _ => alike
        · exact fun n hn asks => absurd asks (unasked n hn)
      rw [parts_congr_zone hp asked]
      rfl

end Stack

end InfraDiagram
