import InfraDiagram.Proofs.QuotedLines
import InfraDiagram.Proofs.Recasting

/-!
# The texts of a diagram are data

Seven properties of nodes are only ever quoted. A diagram is reworded if some of them get another
text, which is blank neither before nor after (`Graph.Rewords`). Then the compilations of both
diagrams have one outcome, and the two programs are the same once the contents of their literals are
blanked out (`Stack.SameButLiterals`).

The diagrams are compared by way of a third one, in which these texts are masked (`Node.mask`).
Masking is a recasting, and reworded diagrams are the same behind it. A declaration branches only on
whether there is a text, and the lines that quote one keep their shape, so that a declaration is the
same before and behind the mask, apart from literals (`sameView_mask`).
-/

namespace InfraDiagram

open Literal

/-! ## 1. Rewording -/

/-- The properties whose texts are only ever quoted. -/
def Property.quoted : List String :=
  [amiId, availabilityZone, instanceType, userData, appPath, indexDocument, errorDocument]

/-- **A property that is reworded**: it is left as it is, or it is one of those that are quoted and
    its text is exchanged, being blank neither before nor after. -/
def Property.Rewords (key : String) (v w : Option Value) : Prop :=
  v = w ∨ key ∈ quoted ∧ ∃ s t, v = some (.str s) ∧ w = some (.str t) ∧
    Text.isBlank s = false ∧ Text.isBlank t = false

/-- A node whose properties are reworded. -/
structure Node.Rewords (n m : Node) : Prop where
  id : m.id = n.id
  kind : m.kind = n.kind
  name : m.name = n.name
  properties : ∀ key, Property.Rewords key (n.property? key) (m.property? key)

/-- **A diagram whose nodes are reworded.** -/
structure Graph.Rewords (g h : Graph) : Prop where
  id : h.id = g.id
  name : h.name = g.name
  edges : h.edges = g.edges
  nodes : List.Forall₂ Node.Rewords g.nodes h.nodes

/-! ## 2. Masking -/

/-- Fields with some keys, those that have a value. -/
def Fields.gather (keys : List String) (value? : String → Option Value) : Fields :=
  keys.filterMap fun key => (value? key).map (Prod.mk key)

theorem Fields.get?_gather (value? : String → Option Value) (key : String) : ∀ keys : List String,
    get? (gather keys value?) key = if key ∈ keys then value? key else none
  | [] => rfl
  | k :: keys => by
      have rest := get?_gather value? key keys
      have mem : key ∈ k :: keys ↔ k = key ∨ key ∈ keys := by simp [eq_comm]
      cases hv : value? k with
      | none =>
        have skip : gather (k :: keys) value? = gather keys value? :=
          List.filterMap_cons_none (by rw [hv]; rfl)
        rw [skip, rest]
        by_cases here : k = key
        · subst here
          simp [hv]
        · simp [mem, here]
      | some v =>
        have keep : gather (k :: keys) value? = (k, v) :: gather keys value? :=
          List.filterMap_cons_some (by rw [hv]; rfl)
        rw [keep]
        unfold get? at rest ⊢
        by_cases here : k = key
        · subst here
          simp [hv]
        · rw [List.find?_cons_of_neg (by simpa using here), rest]
          simp [mem, here]

/-- The properties that declarations read. -/
def Property.read : List String := engine :: allocatedStorage :: quoted

/-- A value of a property, with a text that is quoted masked. -/
def Property.mask (key : String) : Value → Value
  | .str s => if key ∈ quoted ∧ Text.isBlank s = false then .str "masked" else .str s
  | v => v

theorem Property.mask_of_not_quoted {key : String} (h : key ∉ quoted) (v : Value) :
    mask key v = v := by
  cases v with
  | str s => exact if_neg fun both => h both.1
  | _ => rfl

namespace Node

/-- **The node behind a mask**: with the properties that are read only, and those that are quoted
    masked. -/
def mask (n : Node) : Node :=
  { n with properties :=
      Fields.gather Property.read fun key => (n.property? key).map (Property.mask key) }

variable (n : Node) {key : String}

theorem property?_mask (h : key ∈ Property.read) :
    n.mask.property? key = (n.property? key).map (Property.mask key) := by
  unfold property? mask
  rw [Fields.get?_gather, if_pos h]
  rfl

/-- What is not quoted is not masked. -/
theorem property?_mask_of_not_quoted (h : key ∈ Property.read) (other : key ∉ Property.quoted) :
    n.mask.property? key = n.property? key := by
  rw [property?_mask n h, funext (Property.mask_of_not_quoted other)]
  exact Option.map_id'

theorem recasting_mask : Recasting mask where
  id _ := rfl
  kind _ := rfl
  name _ := rfl
  engine n := by
    unfold Engine.ofNode?
    rw [property?_mask_of_not_quoted n (by decide) (by decide)]

variable {n}

/-- **Reworded nodes are the same behind the mask.** -/
theorem Rewords.mask_eq {m : Node} (h : n.Rewords m) : m.mask = n.mask := by
  have same : ∀ key, (m.property? key).map (Property.mask key) =
      (n.property? key).map (Property.mask key) := by
    intro key
    rcases h.properties key with e | ⟨quoted, s, t, hs, ht, blank, blank'⟩
    · rw [e]
    · simp [hs, ht, Property.mask, quoted, blank, blank']
  unfold mask
  rw [funext same, h.id, h.kind, h.name]

end Node

theorem Graph.Rewords.recast_eq {g h : Graph} (r : g.Rewords h) :
    h.recast Node.mask = g.recast Node.mask := by
  have nodes : h.nodes.map Node.mask = g.nodes.map Node.mask := by
    have pairs := r.nodes
    generalize g.nodes = ns, h.nodes = ms at pairs
    induction pairs with
    | nil => rfl
    | cons first _ ih => rw [List.map_cons, List.map_cons, first.mask_eq, ih]
  unfold recast
  rw [r.id, r.name, r.edges, nodes]

/-! ## 3. What is read behind the mask -/

namespace Node

variable (n : Node) {key : String}

/-- Whether there is a text can be told behind the mask. -/
theorem text?_mask (h : key ∈ Property.quoted) :
    Outcome.Rel (fun a b => a.isSome = b.isSome) (n.mask.text? key) (n.text? key) := by
  unfold text?
  rw [property?_mask n (List.mem_cons_of_mem _ (List.mem_cons_of_mem _ h))]
  -- a value that is no text is not masked, so that the error that quotes it stays
  cases n.property? key with
  | none => exact .ok rfl
  | some v =>
    cases v with
    | null => exact .ok rfl
    | str s =>
      have masked : Text.isBlank "masked" = false := by decide
      cases hb : Text.isBlank s with
      | true =>
        have same : Property.mask key (.str s) = .str s := if_neg (by simp [hb])
        rw [Option.map_some, same]
        exact .ok rfl
      | false =>
        have same : Property.mask key (.str s) = .str "masked" := if_pos ⟨h, hb⟩
        rw [Option.map_some, same]
        refine .ok ?_
        simp only [Text.nonBlank?, masked, hb]
        rfl
    | _ => exact .error

theorem text?_mask_of_not_quoted (h : key ∈ Property.read) (other : key ∉ Property.quoted) :
    n.mask.text? key = n.text? key := by
  unfold text?
  rw [property?_mask_of_not_quoted n h other, recasting_mask.id]

theorem positive?_mask (h : key ∈ Property.read) (other : key ∉ Property.quoted) :
    n.mask.positive? key = n.positive? key := by
  unfold positive?
  rw [property?_mask_of_not_quoted n h other, recasting_mask.id]

end Node

namespace Resource

/-- Servers that have the same texts, whatever these say. -/
structure Server.Alike (s s' : Server) : Prop where
  ami : s.ami.isSome = s'.ami.isSome
  userData : s.userData.isSome = s'.userData.isSome
  appPath : s.appPath.isSome = s'.appPath.isSome

theorem Server.ofNode_mask (settings : Settings) (n : Node) :
    Outcome.Rel Server.Alike (ofNode settings n.mask) (ofNode settings n) := by
  unfold ofNode
  exact (n.text?_mask (by decide)).bind fun ami => (n.text?_mask (by decide)).bind fun _ =>
    (n.text?_mask (by decide)).bind fun _ => (n.text?_mask (by decide)).bind fun userData =>
    (n.text?_mask (by decide)).bind fun appPath => .ok ⟨ami, userData, appPath⟩

/-- Databases that are the same, whatever their instance types are. -/
structure Database.Alike (d d' : Database) : Prop where
  engine : d.engine = d'.engine
  storage : d.storage = d'.storage

theorem Database.ofNode_mask (settings : Settings) (n : Node) :
    Outcome.Rel Database.Alike (ofNode settings n.mask) (ofNode settings n) := by
  have engine : engineOf n.mask = engineOf n := by
    unfold engineOf
    rw [n.text?_mask_of_not_quoted (by decide) (by decide), Node.recasting_mask.id]
  unfold ofNode
  rw [engine, n.positive?_mask (by decide) (by decide)]
  refine (Outcome.Rel.refl _).bind fun engine => (n.text?_mask (by decide)).bind fun _ =>
    (Outcome.Rel.refl _).bind fun storage => .ok ⟨engine, ?_⟩
  rw [storage]

/-- Buckets that have the same texts, whatever these say. -/
structure Bucket.Alike (b b' : Bucket) : Prop where
  index : b.index.isSome = b'.index.isSome
  appPath : b.appPath.isSome = b'.appPath.isSome

theorem Bucket.ofNode_mask (n : Node) :
    Outcome.Rel Bucket.Alike (ofNode n.mask) (ofNode n) := by
  unfold ofNode
  exact (n.text?_mask (by decide)).bind fun index => (n.text?_mask (by decide)).bind fun _ =>
    (n.text?_mask (by decide)).bind fun appPath => .ok ⟨index, appPath⟩

end Resource

/-! ## 4. Steps of one shape -/

/-- A line with the contents of its literals blanked out. -/
def Line.blanked (l : Line) : Line := { l with text := blank l.text }

namespace Fragment

/-- **A fragment with the contents of its literals blanked out.** -/
def blanked (f : Fragment) : Fragment := { f with lines := f.lines.map Line.blanked }

/-- Steps that are the same, or write lines that differ in the contents of literals only. -/
inductive SameShape : Step → Step → Prop where
  | same (step : Step) : SameShape step step
  | line {text text' : String} (h : blank text = blank text') : SameShape (.line text) (.line text')

theorem sameShape_refl (steps : List Step) : List.Forall₂ SameShape steps steps :=
  List.forall₂_same.mpr fun step _ => .same step

/-- Fragments with lines of one shape are extended to such by steps of one shape. -/
theorem blanked_step {f f' : Fragment} (hf : f.blanked = f'.blanked) {step step' : Step}
    (hs : SameShape step step') : (f.step step).blanked = (f'.step step').blanked := by
  obtain ⟨origin, lines, imports, defines, references, outputs, depth⟩ := f
  obtain ⟨origin', lines', imports', defines', references', outputs', depth'⟩ := f'
  simp only [blanked, Fragment.mk.injEq] at hf
  obtain ⟨rfl, hlines, rfl, rfl, rfl, rfl, rfl⟩ := hf
  -- apart from lines, both fragments are now the same
  cases hs with
  | line h => simp [Fragment.step, addLine, blanked, Line.blanked, hlines, h]
  | same step =>
    cases step with
    | line text => simp [Fragment.step, addLine, blanked, hlines]
    | output o => simp [Fragment.step, addLine, blanked, hlines]
    | indent => simp [Fragment.step, blanked, hlines]
    | dedent => simp [Fragment.step, blanked, hlines]
    | use m =>
      simp only [Fragment.step]
      split <;> simp [blanked, hlines]
    | define v =>
      simp only [Fragment.step]
      split <;> simp [blanked, hlines]
    | reference v =>
      simp only [Fragment.step]
      split <;> simp [blanked, hlines]

/-- **Steps of one shape build fragments that are the same but for literals.** -/
theorem blanked_build (origin : Origin) {steps steps' : List Step}
    (h : List.Forall₂ SameShape steps steps') :
    (build origin steps).blanked = (build origin steps').blanked := by
  have run : ∀ {f f' : Fragment}, f.blanked = f'.blanked →
      (f.extend steps).blanked = (f'.extend steps').blanked := by
    induction h with
    | nil => exact fun hf => hf
    | cons first _ ih => exact fun hf => ih (blanked_step hf first)
  exact run rfl

theorem both_or_neither {o o' : Option String} (h : o.isSome = o'.isSome) :
    o = none ∧ o' = none ∨ ∃ t t', o = some t ∧ o' = some t' := by
  cases o <;> cases o' <;> simp_all

/-- Steps for a text that may be there. -/
theorem sameShape_elim {o o' : Option String} (h : o.isSome = o'.isSome)
    {f : String → List Step} (hf : ∀ t t', List.Forall₂ SameShape (f t) (f t')) :
    List.Forall₂ SameShape (o.elim [] f) (o'.elim [] f) := by
  rcases both_or_neither h with ⟨rfl, rfl⟩ | ⟨t, t', rfl, rfl⟩
  · exact .nil
  · exact hf t t'

end Fragment

namespace Resource

open Fragment (SameShape sameShape_refl sameShape_elim both_or_neither)

variable {symbol net : Symbol} {settings : Settings}

/-- A line that quotes a text keeps its shape, whatever the text is. -/
theorem text_sameShape {lead tail : String} {q : Char} (opens : Opens q lead)
    (closes : Closes q tail) (t t' : String) :
    SameShape (.line (lead ++ escape t ++ tail)) (.line (lead ++ escape t' ++ tail)) := by
  refine .line ?_
  rw [text_written, text_written, blank_written (textLayout_sound t opens closes),
    blank_written (textLayout_sound t' opens closes)]
  rfl

namespace Server

variable {s s' : Server}

theorem machineImage_sameShape (h : s.ami.isSome = s'.ami.isSome) :
    SameShape (.line ("machine_image=" ++ s.machineImage ++ ","))
      (.line ("machine_image=" ++ s'.machineImage ++ ",")) := by
  unfold machineImage
  rcases both_or_neither h with ⟨e, e'⟩ | ⟨ami, ami', e, e'⟩
  · rw [e, e']
    exact .same _
  · rw [e, e']
    refine .line ?_
    simp only [image_written]
    rw [blank_written (imageLayout_sound _ _), blank_written (imageLayout_sound _ _)]
    rfl

theorem declaration_sameShape (h : s.Alike s') (isPublic : Bool) :
    List.Forall₂ SameShape (s.declaration symbol net isPublic)
      (s'.declaration symbol net isPublic) := by
  unfold declaration
  refine List.rel_append (List.rel_append ?_ (sameShape_refl _)) (sameShape_refl _)
  exact .cons (.same _) <| .cons (.same _) <|
    .cons (text_sameShape (q := '\'') (.fixed (by decide)) (.fixed (by decide)) _ _) <|
    .cons (machineImage_sameShape h.ami) .nil

theorem application_sameShape (hs : symbol.Legible) (path path' : String) :
    List.Forall₂ SameShape (application symbol path) (application symbol path') := by
  have asset : blank ((symbol.satellite .asset).var ++ "=s3assets.Asset(self, '" ++
        (symbol.satellite .asset).resource ++ "', path='" ++ escape path ++ "')") =
      blank ((symbol.satellite .asset).var ++ "=s3assets.Asset(self, '" ++
        (symbol.satellite .asset).resource ++ "', path='" ++ escape path' ++ "')") := by
    rw [asset_written, asset_written, blank_written (assetLayout_sound hs path),
      blank_written (assetLayout_sound hs path')]
    rfl
  exact .cons (.same _) <| .cons (.line asset) (sameShape_refl _)

/-- **The declarations of alike servers have one shape.** -/
theorem steps_sameShape (h : s.Alike s') (hs : symbol.Legible) (nodeId : String) (isPublic : Bool) :
    List.Forall₂ SameShape (s.steps settings nodeId symbol net isPublic)
      (s'.steps settings nodeId symbol net isPublic) := by
  have applied := sameShape_elim h.appPath (application_sameShape hs)
  have scripted := sameShape_elim h.userData (f := script symbol) fun t t' =>
    .cons (text_sameShape (.after hs.isCode (.fixed (by decide))) (.fixed (by decide)) t t') .nil
  rw [steps_eq, steps_eq]
  exact List.rel_append (List.rel_append (List.rel_append (List.rel_append (sameShape_refl _)
    (declaration_sameShape h isPublic)) applied) scripted) (sameShape_refl _)

end Server

/-- **The declarations of alike databases have one shape.** -/
theorem Database.steps_sameShape {d d' : Database} (h : d.Alike d') (stackName : String)
    (isPublic : Bool) :
    List.Forall₂ SameShape (d.steps settings stackName symbol net isPublic)
      (d'.steps settings stackName symbol net isPublic) := by
  unfold steps declaration
  rw [h.engine, h.storage]
  refine List.rel_append (sameShape_refl _) <|
    List.rel_append (List.rel_append ?_ (sameShape_refl _)) (sameShape_refl _)
  exact .cons (.same _) <| .cons (.same _) <| .cons (.same _) <|
    .cons (text_sameShape (q := '\'') (.fixed (by decide)) (.fixed (by decide)) _ _)
      (sameShape_refl _)

namespace Bucket

variable {b b' : Bucket}

theorem visibility_sameShape (h : b.index.isSome = b'.index.isSome) :
    List.Forall₂ SameShape b.visibility b'.visibility := by
  unfold visibility
  rcases both_or_neither h with ⟨e, e'⟩ | ⟨index, index', e, e'⟩
  · rw [e, e']
    exact sameShape_refl _
  · rw [e, e']
    exact .cons (.same _) <| .cons (.same _) <|
      .cons (text_sameShape (q := '\'') (.fixed (by decide)) (.fixed (by decide)) _ _) <|
      .cons (text_sameShape (q := '\'') (.fixed (by decide)) (.fixed (by decide)) _ _) .nil

/-- **The declarations of alike buckets have one shape.** -/
theorem steps_sameShape (h : b.Alike b') (nodeId : String) (symbol : Symbol) :
    List.Forall₂ SameShape (b.steps nodeId symbol) (b'.steps nodeId symbol) := by
  have deployed := sameShape_elim h.appPath (f := deployment symbol) fun t t' =>
    .cons (.same _) <| .cons (.same _) <| .cons (.same _) <|
      .cons (text_sameShape (q := '\'') (.fixed (by decide)) (.fixed (by decide)) t t')
        (sameShape_refl _)
  rw [steps_eq, steps_eq, h.index]
  unfold declaration
  exact List.rel_append (List.rel_append (List.rel_append (List.rel_append (sameShape_refl _)
    (visibility_sameShape h.index)) (sameShape_refl _)) deployed) (sameShape_refl _)

end Bucket

end Resource

/-! ## 5. Compiling reworded diagrams -/

namespace Stack

open Resource Fragment
open Node (recasting_mask)

variable {settings : Settings} {g h : Graph} {name : String}

/-- The steps of a node keep their shape behind the mask. -/
theorem stepsOf_mask (g : Graph) {a : Allocator} (legible : a.Legible) (n : Node) :
    Outcome.Rel (List.Forall₂ SameShape)
      (stepsOf (scopeOf settings (g.recast Node.mask) name a.table) n.mask)
      (stepsOf (scopeOf settings g name a.table) n) := by
  have symbol : Outcome.Rel (fun x y => x = y ∧ y.Legible)
      ((scopeOf settings (g.recast Node.mask) name a.table).symbol n.mask)
      ((scopeOf settings g name a.table).symbol n) := by
    rw [symbol_recast recasting_mask]
    cases hs : (scopeOf settings g name a.table).symbol n with
    | error e => exact .error
    | ok symbol => exact .ok ⟨rfl, legible (some n.id) symbol (Scope.symbol_eq_ok_iff.mp hs)⟩
  have network := networkOf_recast recasting_mask g settings name a.table n
  have isPublic : (g.recast Node.mask).isPublic n.id = g.isPublic n.id :=
    Graph.isPublic_recast recasting_mask g n.id
  unfold stepsOf
  rw [recasting_mask.kind]
  cases n.kind with
  | vpc =>
    refine symbol.bind fun {x y} hxy => .ok ?_
    rw [hxy.1]
    exact sameShape_refl _
  | server =>
    refine (Server.ofNode_mask settings n).bind fun alike => symbol.bind fun {x y} hxy => ?_
    rw [network]
    refine (Outcome.Rel.refl _).bind fun {net net'} hnet => .ok ?_
    rw [hxy.1, hnet, recasting_mask.id]
    show List.Forall₂ SameShape (Server.steps _ _ _ _ _ ((g.recast Node.mask).isPublic n.id)) _
    rw [isPublic]
    exact Server.steps_sameShape alike hxy.2 n.id _
  | database =>
    refine (Database.ofNode_mask settings n).bind fun alike => symbol.bind fun {x y} hxy => ?_
    rw [network]
    refine (Outcome.Rel.refl _).bind fun {net net'} hnet => .ok ?_
    rw [hxy.1, hnet, recasting_mask.id]
    show List.Forall₂ SameShape (Database.steps _ _ _ _ _ ((g.recast Node.mask).isPublic n.id)) _
    rw [isPublic]
    exact Database.steps_sameShape alike name _
  | bucket =>
    refine (Bucket.ofNode_mask n).bind fun alike => symbol.bind fun {x y} hxy => .ok ?_
    rw [hxy.1]
    exact Bucket.steps_sameShape alike n.id y

/-- **A declaration is the same behind the mask, but for literals.** -/
theorem sameView_mask (settings : Settings) (name : String) :
    SameView settings name Node.mask Fragment.blanked := by
  intro g a n legible
  unfold emit
  rw [Outcome.map_eq_map_iff, recasting_mask.id]
  exact (stepsOf_mask g legible n).map fun shape => blanked_build (.node n.id) shape

/-- Reworded diagrams compile to the same parts, but for literals. -/
theorem parts_rewords (r : g.Rewords h) :
    (parts settings g name).map (Parts.seen Fragment.blanked) =
      (parts settings h name).map (Parts.seen Fragment.blanked) := by
  rw [← parts_recast recasting_mask g (sameView_mask settings name), ← r.recast_eq,
    parts_recast recasting_mask h (sameView_mask settings name)]

/-- **Stacks that are the same but for literals**: their programs are put together from fragments
    that are the same, line by line, once the contents of literals are blanked out. -/
structure SameButLiterals (className : String) (stack stack' : Stack) (fs fs' : List Fragment) :
    Prop where
  name : stack.name = stack'.name
  symbols : stack.symbols = stack'.symbols
  declared : stack.declared = stack'.declared
  outputs : stack.outputs = stack'.outputs
  source : stack.source = program className stack.name fs
  source' : stack'.source = program className stack'.name fs'
  fragments : fs.map Fragment.blanked = fs'.map Fragment.blanked
  lines : (programLines className stack.name fs).map Line.blanked =
    (programLines className stack'.name fs').map Line.blanked

/-- What does not depend on lines can be told with literals blanked out. -/
theorem flatMap_eq_of_blanked {α : Type} (field : Fragment → List α)
    (kept : ∀ f, field f.blanked = field f) {fs fs' : List Fragment}
    (same : fs.map Fragment.blanked = fs'.map Fragment.blanked) :
    fs.flatMap field = fs'.flatMap field := by
  have through : ∀ fs : List Fragment,
      fs.flatMap field = (fs.map Fragment.blanked).flatMap field := by
    intro fs
    rw [List.flatMap_map]
    exact congrArg (fun f => fs.flatMap f) (funext fun f => (kept f).symm)
  rw [through fs, through fs', same]

theorem map_blanked_body (fs : List Fragment) :
    (body fs).map Line.blanked = body (fs.map Fragment.blanked) := by
  have lines : (fs.map Fragment.blanked).flatMap Fragment.lines =
      (fs.flatMap Fragment.lines).map Line.blanked := by
    rw [List.flatMap_map, List.map_flatMap]
    rfl
  unfold body
  rw [lines, List.map_map, List.map_map]
  rfl

/-- The program of fragments that are the same but for literals is the same but for literals. -/
theorem programLines_eq_of_blanked (className stackName : String) {fs fs' : List Fragment}
    (same : fs.map Fragment.blanked = fs'.map Fragment.blanked) :
    (programLines className stackName fs).map Line.blanked =
      (programLines className stackName fs').map Line.blanked := by
  have modules : modulesOf fs = modulesOf fs' := by
    unfold modulesOf
    rw [flatMap_eq_of_blanked Fragment.imports (fun _ => rfl) same]
  unfold programLines
  simp only [List.map_append, map_blanked_body, modules, same]

theorem generateNamed_eq_map (settings : Settings) (g : Graph) (name : String) :
    generateNamed settings g name = (parts settings g name).map fun p =>
      { assembled settings.stackClass name p.fragments with symbols := some p.symbols } := by
  cases hp : parts settings g name with
  | error e => exact generateNamed_error_of_parts hp
  | ok p => exact generateNamed_eq_ok_iff.mpr ⟨p, hp, rfl⟩

/-- Parts that are the same but for literals make stacks that are. -/
theorem sameButLiterals_of_seen {p p' : Parts} (className stackName : String)
    (same : p.seen Fragment.blanked = p'.seen Fragment.blanked) :
    SameButLiterals className
      { assembled className stackName p.fragments with symbols := some p.symbols }
      { assembled className stackName p'.fragments with symbols := some p'.symbols }
      p.fragments p'.fragments := by
  simp only [Parts.seen, Prod.mk.injEq] at same
  obtain ⟨symbols, declarations, rules⟩ := same
  have fragments : p.fragments.map Fragment.blanked = p'.fragments.map Fragment.blanked := by
    unfold Parts.fragments
    rw [List.map_append, List.map_append, declarations, rules]
  exact {
    name := rfl
    symbols := congrArg some symbols
    declared := congrArg (List.foldl appendNew [])
      (flatMap_eq_of_blanked _ (fun _ => rfl) fragments)
    outputs := flatMap_eq_of_blanked _ (fun _ => rfl) fragments
    source := rfl
    source' := rfl
    fragments
    lines := programLines_eq_of_blanked className stackName fragments }

/-- **The texts of a diagram never become code.** Reworded diagrams both fail with the same error,
    or both compile to stacks that are the same but for literals. -/
theorem generateNamed_rewords (settings : Settings) (name : String) (r : g.Rewords h) :
    Outcome.Rel (fun stack stack' => ∃ p p', parts settings g name = .ok p ∧
        parts settings h name = .ok p' ∧
        SameButLiterals settings.stackClass stack stack' p.fragments p'.fragments)
      (generateNamed settings g name) (generateNamed settings h name) := by
  have seen := (Outcome.map_eq_map_iff.mp (@parts_rewords settings g h name r)).results
  rw [generateNamed_eq_map, generateNamed_eq_map]
  exact seen.map fun {p p'} both => ⟨p, p', both.2.1, both.2.2, sameButLiterals_of_seen _ _ both.1⟩

/-- A server and a website that say the same wherever they may. -/
def worded (text : String) : Graph where
  name := "shop"
  nodes := [⟨"web", .server, "web", Fields.gather Property.quoted fun _ => some (.str text)⟩,
    ⟨"site", .bucket, "site", Fields.gather Property.quoted fun _ => some (.str text)⟩]
  edges := []

theorem worded_rewords {s t : String} (hs : Text.isBlank s = false) (ht : Text.isBlank t = false) :
    (worded s).Rewords (worded t) := by
  have node : ∀ id kind, Node.Rewords
      ⟨id, kind, id, Fields.gather Property.quoted fun _ => some (.str s)⟩
      ⟨id, kind, id, Fields.gather Property.quoted fun _ => some (.str t)⟩ := by
    intro id kind
    refine ⟨rfl, rfl, rfl, fun key => ?_⟩
    unfold Node.property?
    rw [Fields.get?_gather, Fields.get?_gather]
    by_cases quoted : key ∈ Property.quoted
    · rw [if_pos quoted, if_pos quoted]
      exact Or.inr ⟨quoted, s, t, rfl, rfl, hs, ht⟩
    · rw [if_neg quoted, if_neg quoted]
      exact Or.inl rfl
  exact ⟨rfl, rfl, rfl, .cons (node "web" .server) <| .cons (node "site" .bucket) .nil⟩

/-- A text that looks like code makes another program, but it stays in its literals. -/
theorem worded_same_but_literals :
    ∃ stack stack' fs fs', generateNamed {} (worded "x") "shop" = .ok stack ∧
      generateNamed {} (worded "'), f(\"\\\n\"), g('") "shop" = .ok stack' ∧ fs ≠ fs' ∧
      SameButLiterals "CdkWorkshopStack" stack stack' fs fs' := by
  have compiles : ∃ stack, generateNamed {} (worded "x") "shop" = .ok stack :=
    Outcome.exists_of_isOk (by decide)
  have differs : (parts {} (worded "x") "shop").map Parts.fragments ≠
      (parts {} (worded "'), f(\"\\\n\"), g('") "shop").map Parts.fragments := by
    decide
  have rel := generateNamed_rewords {} "shop"
    (@worded_rewords "x" "'), f(\"\\\n\"), g('" (by decide) (by decide))
  obtain ⟨stack, e⟩ := compiles
  rw [e] at rel
  generalize generateNamed {} (worded "'), f(\"\\\n\"), g('") "shop" = x at rel
  cases rel with
  | @ok _ stack' same =>
    obtain ⟨p, p', hp, hp', same⟩ := same
    rw [hp, hp'] at differs
    exact ⟨stack, stack', p.fragments, p'.fragments, e, rfl,
      fun h => differs (congrArg Except.ok h), same⟩

end Stack

end InfraDiagram
