import InfraDiagram.Proofs.Declarations
import InfraDiagram.Proofs.Reading
import InfraDiagram.Proofs.Rules
import InfraDiagram.Symbol.Allocator

/-!
# Steps that say what they announce

The steps of a fragment announce by hand which variables their lines define and refer to and which
modules they need. `Honest` compares that with the text of the lines: a line names only variables
that are assigned or referred to before it, a variable is announced as defined only after a line
that assigns to it, and the modules that the lines name are collected.

There is one theorem for each part that declarations and rules are made of, and from them
`Resource.Declares.faithful` and `Access.stepsWith_faithful`.
-/

namespace InfraDiagram

open Reading

/-! ## 1. The judgement -/

namespace Fragment

/-- **Steps that say what they announce.** `known` are the variables that may be named before the
    steps, `later` those that may be named after them, and the modules are those that the lines
    name. -/
inductive Honest : (known : List String) → List Step → (later : List String) → List Module → Prop
    where
  | nil {known : List String} : Honest known [] known []
  | line {known later : List String} {text : String} {ms ms' : List Module} {steps : List Step}
      (spells : Spells known .code text ms) (rest : Honest known steps later ms') :
      Honest known (.line text :: steps) later (ms ++ ms')
  | assign {known later : List String} {v text : String} {ms ms' : List Module} {steps : List Step}
      (assigns : Assigns (v :: known) v text ms) (rest : Honest (v :: known) steps later ms') :
      Honest known (.line text :: steps) later (ms ++ ms')
  | output {known later : List String} {o : Output} {ms ms' : List Module} {steps : List Step}
      (spells : Spells known .code (outputLine o) ms) (rest : Honest known steps later ms') :
      Honest known (.output o :: steps) later (ms ++ ms')
  | reference {known later : List String} {v : String} {ms : List Module} {steps : List Step}
      (rest : Honest (v :: known) steps later ms) : Honest known (.reference v :: steps) later ms
  | define {known later : List String} {v : String} {ms : List Module} {steps : List Step}
      (mem : v ∈ known) (rest : Honest known steps later ms) :
      Honest known (.define v :: steps) later ms
  | use {known later : List String} {m : Module} {ms : List Module} {steps : List Step}
      (rest : Honest known steps later ms) : Honest known (.use m :: steps) later ms
  | indent {known later : List String} {ms : List Module} {steps : List Step}
      (rest : Honest known steps later ms) : Honest known (.indent :: steps) later ms
  | dedent {known later : List String} {ms : List Module} {steps : List Step}
      (rest : Honest known steps later ms) : Honest known (.dedent :: steps) later ms

theorem Honest.append {known mid later : List String} {xs ys : List Step} {ms ms' : List Module}
    (h : Honest known xs mid ms) (h' : Honest mid ys later ms') :
    Honest known (xs ++ ys) later (ms ++ ms') := by
  induction h with
  | nil => exact h'
  | line spells _ ih => exact List.append_assoc .. ▸ .line spells (ih h')
  | assign assigns _ ih => exact List.append_assoc .. ▸ .assign assigns (ih h')
  | output spells _ ih => exact List.append_assoc .. ▸ .output spells (ih h')
  | reference _ ih => exact .reference (ih h')
  | define mem _ ih => exact .define mem (ih h')
  | use _ ih => exact .use (ih h')
  | indent _ ih => exact .indent (ih h')
  | dedent _ ih => exact .dedent (ih h')

/-- Steps that say what they announce and need nothing before them, and whose lines name exactly the
    modules they announce. -/
def Faithful (steps : List Step) : Prop :=
  ∃ later ms, Honest [] steps later ms ∧ ∀ m, m ∈ ms ↔ .use m ∈ steps

end Fragment

/-! ## 2. Symbols that can be read -/

/-- A symbol with a numbered variable and a name that can be registered. -/
structure Symbol.Legible (s : Symbol) : Prop where
  var : ∃ k, s.var = variableName k
  resource : ∀ c ∈ s.resource.toList, isResourceChar c = true

theorem isPlain_of_isResourceChar {c : Char} (h : isResourceChar c = true) :
    isPlain '\'' c = true := by
  have differs : ∀ d, isResourceChar d = false → c ≠ d := by
    rintro d hd rfl
    rw [h] at hd
    cases hd
  simp [isPlain, isBreak, differs '\'' rfl, differs '\\' rfl, differs '\n' rfl, differs '\r' rfl]

namespace Symbol.Legible

variable {s : Symbol} (hs : s.Legible)
include hs

theorem isVariable : isVariable s.var.toList = true := by
  obtain ⟨k, hk⟩ := hs.var
  rw [hk]
  exact isVariable_variableName k

theorem isVariable_append {letters : List Char} (hne : letters ≠ [])
    (h : letters.all Char.isAlpha = true) :
    Reading.isVariable (s.var ++ String.ofList ('_' :: letters)).toList = true := by
  obtain ⟨k, hk⟩ := hs.var
  rw [hk]
  exact isVariable_variableName_append k hne h

theorem satellite (k : Satellite) : Reading.isVariable (s.satellite k).var.toList = true := by
  cases k <;> exact hs.isVariable_append (by decide) (by decide)

theorem stays : Stays '\'' s.resource :=
  stays_of_plain fun c hc => isPlain_of_isResourceChar (hs.resource c hc)

theorem stays_satellite (k : Satellite) : Stays '\'' (s.satellite k).resource := by
  refine hs.stays.append (stays_of_plain fun c hc => isPlain_of_isResourceChar ?_)
  revert c
  refine List.all_eq_true.mp ?_
  cases k <;> decide

end Symbol.Legible

/-! ## 3. Networks, groups and roles -/

namespace Resource

open Fragment (Honest Faithful)

/-- Inside a literal with single quotes. -/
abbrev quoted : Mode := .literal '\'' false

variable {symbol net : Symbol} {known : List String} {settings : Settings}

theorem network_faithful (hs : symbol.Legible) : Faithful (network symbol settings) := by
  refine ⟨[symbol.var], [.ec2], ?_, fun m => by simp [network]⟩
  unfold network
  simp only [String.append_assoc]
  exact .use <| .assign (.fixedUsing quoted [.ec2] hs.isVariable List.mem_cons_self
      (.append (by decide)) (by decide) (by decide) <| .inside hs.stays <|
      .fixed .code (by decide) <| .number _ (.fixed (by decide)) <|
      .last (by decide)) <|
    .define List.mem_cons_self .nil

theorem securityGroup_honest (hs : symbol.Legible) (hn : net.Legible) :
    Honest known (securityGroup symbol net)
      ((symbol.satellite .securityGroup).var :: net.var :: known) [.ec2] := by
  unfold securityGroup
  simp only [String.append_assoc]
  exact .use <| .reference <| .assign (.fixedUsing quoted [.ec2] (hs.satellite .securityGroup)
      List.mem_cons_self (.append (by decide)) (by decide) (by decide) <|
      .inside (hs.stays_satellite .securityGroup) <| .fixed .code (by decide) <|
      .name hn.isVariable (by simp) (.fixed (by decide)) <| .last (by decide)) <|
    .define List.mem_cons_self .nil

theorem serverRole_honest (hs : symbol.Legible) (policy : Stays '\'' settings.managedPolicy) :
    Honest known (serverRole symbol settings) ((symbol.satellite .role).var :: known)
      [.iam, .iam, .iam] := by
  unfold serverRole
  simp only [String.append_assoc]
  exact .use <| .assign (.fixedUsing quoted [.iam] (hs.satellite .role) List.mem_cons_self
      (.append (by decide)) (by decide) (by decide) <|
      .inside (hs.stays_satellite .role) <| .lastUsing [.iam] (by decide)) <|
    .line (.name (hs.satellite .role) (by simp) (.append (by decide)) <|
      .fixedUsing quoted [.iam] (by decide) <| .inside policy <|
      .last (by decide)) <|
    .define List.mem_cons_self .nil

theorem publicSubnets_spells : Spells known .code publicSubnets [.ec2] :=
  .lastUsing [.ec2] (by decide)

/-- The line that may put a resource into public subnets. -/
theorem placement_honest (known : List String) (isPublic : Bool) :
    Honest known (if isPublic then [.line publicSubnets] else []) known
      (if isPublic then [.ec2] else []) := by
  cases isPublic with
  | false => exact .nil
  | true => exact .line publicSubnets_spells .nil

/-! ## 4. Servers -/

namespace Server

theorem machineImage_spells (s : Server) :
    Spells known .code ("machine_image=" ++ (s.machineImage ++ ",")) [.ec2] := by
  unfold machineImage
  split
  · simp only [String.append_assoc]
    exact .fixed .code (by decide) <|
      .fixedUsing (.literal '"' false) [.ec2] (by decide) <|
      .inside (stays_escape rfl _) <| .fixed (.literal '"' false) (by decide) <|
      .inside (stays_escape rfl _) <| .fixed .code (by decide) <| .last (by decide)
  · exact .fixed .code (by decide) <| .fixedUsing .code [.ec2] (by decide) <|
      .last (by decide)

theorem declaration_honest (s : Server) (isPublic : Bool) (hs : symbol.Legible) (hn : net.Legible)
    (network : net.var ∈ known) (group : (symbol.satellite .securityGroup).var ∈ known)
    (role : (symbol.satellite .role).var ∈ known) :
    Honest known (s.declaration symbol net isPublic) (symbol.var :: known)
      ([.ec2, .ec2, .ec2] ++ (if isPublic then [.ec2] else []) ++ []) := by
  unfold declaration
  simp only [String.append_assoc]
  refine (Honest.append ?_ (placement_honest (symbol.var :: known) isPublic)).append ?_
  · exact .assign (.fixedUsing quoted [.ec2] hs.isVariable List.mem_cons_self
        (.append (by decide)) (by decide) (by decide) <| .inside hs.stays <|
        .last (by decide)) <|
      .indent <|
      .line (.fixedUsing quoted [.ec2] (by decide) <| .inside (stays_escape rfl _) <|
        .last (by decide)) <|
      .line s.machineImage_spells .nil
  · exact .line (.fixed .code (by decide) <|
        .name hn.isVariable (List.mem_cons_of_mem _ network) (.fixed (by decide)) <|
        .last (by decide)) <|
      .line (.fixed .code (by decide) <|
        .name (hs.satellite _) (List.mem_cons_of_mem _ group) (.fixed (by decide)) <|
        .last (by decide)) <|
      .line (.fixed .code (by decide) <|
        .nameLast (hs.satellite _) (List.mem_cons_of_mem _ role)) <|
      .dedent <| .line (.last (by decide)) <| .define List.mem_cons_self .nil

theorem application_honest (path : String) (hs : symbol.Legible) (own : symbol.var ∈ known)
    (role : (symbol.satellite .role).var ∈ known) :
    Honest known (application symbol path)
      ((symbol.var ++ "_filepath") :: (symbol.satellite .asset).var :: known) [.s3Assets] := by
  have filepath : Reading.isVariable (symbol.var ++ "_filepath").toList = true :=
    hs.isVariable_append (by decide) (by decide)
  unfold application
  generalize hf : symbol.var ++ "_filepath" = file at filepath
  simp only [String.append_assoc]
  exact .use <| .assign (.fixedUsing quoted [.s3Assets] (hs.satellite .asset) List.mem_cons_self
      (.append (by decide)) (by decide) (by decide) <|
      .inside (hs.stays_satellite .asset) <| .fixed quoted (by decide) <|
      .inside (stays_escape rfl _) <| .last (by decide)) <|
    .line (.name (hs.satellite .asset) List.mem_cons_self (.append (by decide)) <|
      .fixed .code (by decide) <|
      .name (hs.satellite .role) (List.mem_cons_of_mem _ role) (.fixed (by decide)) <|
      .last (by decide)) <|
    .assign (.name filepath List.mem_cons_self hs.isVariable (by simp [own]) (.append (by decide)) <|
      .fixed .code (by decide) <|
      .name (hs.satellite .asset) (by simp) (.append (by decide)) <|
      .fixed .code (by decide) <|
      .name (hs.satellite .asset) (by simp) (.fixed (by decide)) <| .last (by decide)) <|
    .line (.name hs.isVariable (by simp [own]) (.append (by decide)) <|
      .fixed (.field '\'') (by decide) <| .field filepath (by simp) <|
      .last (by decide)) <|
    .line (.name hs.isVariable (by simp [own]) (.fixed (by decide)) <| .last (by decide)) <|
    .define (by simp) <| .define (by simp) .nil

theorem script_honest (text : String) (hs : symbol.Legible) (own : symbol.var ∈ known) :
    Honest known (script symbol text) known [] := by
  unfold script
  simp only [String.append_assoc]
  exact .line (.name hs.isVariable own (.append (by decide)) <| .fixed quoted (by decide) <|
    .inside (stays_escape rfl _) <| .last (by decide)) .nil

theorem address_spells (nodeId : String) (hs : symbol.Legible) (own : symbol.var ∈ known) :
    Spells known .code (Fragment.outputLine (address nodeId symbol)) [] := by
  unfold Fragment.outputLine address
  simp only [String.append_assoc, String.reduceAppend]
  exact .fixed quoted (by decide) <| .inside hs.stays <| .fixed .code (by decide) <|
    .name hs.isVariable own (.fixed (by decide)) <| .last (by decide)

theorem steps_eq (s : Server) (nodeId : String) (isPublic : Bool) :
    s.steps settings nodeId symbol net isPublic =
      securityGroup symbol net ++ serverRole symbol settings ++ s.declaration symbol net isPublic ++
        s.appPath.elim [] (application symbol) ++ s.userData.elim [] (script symbol) ++
        [.output (address nodeId symbol)] := by
  unfold steps
  cases s.appPath <;> cases s.userData <;> rfl

theorem steps_faithful (s : Server) (nodeId : String) (isPublic : Bool) (hs : symbol.Legible)
    (hn : net.Legible) (policy : Stays '\'' settings.managedPolicy) :
    Faithful (s.steps settings nodeId symbol net isPublic) := by
  let group := (symbol.satellite .securityGroup).var
  let role := (symbol.satellite .role).var
  have grouped : Honest [] (securityGroup symbol net) [group, net.var] [.ec2] :=
    securityGroup_honest hs hn
  have trusted : Honest [group, net.var] (serverRole symbol settings) [role, group, net.var]
    [.iam, .iam, .iam] := serverRole_honest hs policy
  have declared : Honest [role, group, net.var] (s.declaration symbol net isPublic)
      [symbol.var, role, group, net.var] _ :=
    s.declaration_honest isPublic hs hn (by simp) (by simp [group]) (by simp [role])
  obtain ⟨later, own, applied⟩ : ∃ later, symbol.var ∈ later ∧
      Honest [symbol.var, role, group, net.var] (s.appPath.elim [] (application symbol)) later
        (if s.appPath.isSome then [.s3Assets] else []) := by
    cases s.appPath with
    | none => exact ⟨_, List.mem_cons_self, .nil⟩
    | some path => exact ⟨_, by simp, application_honest path hs (by simp) (by simp [role])⟩
  have scripted : Honest later (s.userData.elim [] (script symbol)) later [] := by
    cases s.userData with
    | none => exact .nil
    | some text => exact script_honest text hs own
  rw [steps_eq]
  refine ⟨later, _, ((((grouped.append trusted).append declared).append applied).append
    scripted).append (.output (address_spells nodeId hs own) .nil), fun m => ?_⟩
  cases s.appPath <;> cases s.userData <;> cases isPublic <;>
    simp [securityGroup, serverRole, declaration, application, script] <;> grind

end Server

/-! ## 5. Databases -/

namespace Database

theorem declaration_honest (d : Database) (name : String) (isPublic : Bool) (hs : symbol.Legible)
    (hn : net.Legible) (network : net.var ∈ known)
    (group : (symbol.satellite .securityGroup).var ∈ known) :
    Honest known (d.declaration name symbol net isPublic) (symbol.var :: known)
      ([.rds, .ec2, .rds] ++ (if isPublic then [.ec2] else []) ++ [.rds]) := by
  have engine : ∀ known, Spells known .code
      ("engine=rds.DatabaseInstanceEngine." ++ (d.engine.constant ++ ",")) [.rds] := by
    intro known
    cases d.engine <;> simp only [Engine.constant, String.reduceAppend] <;>
      exact .lastUsing [.rds] (by decide)
  have credentials : ∀ known, Spells known .code
      ("credentials=rds.Credentials.from_generated_secret('" ++ (d.engine.text ++ "_user'),"))
      [.rds] := by
    intro known
    cases d.engine <;> simp only [Engine.text, String.reduceAppend] <;>
      exact .lastUsing [.rds] (by decide)
  unfold declaration
  simp only [String.append_assoc]
  refine (Honest.append ?_ (placement_honest (symbol.var :: known) isPublic)).append ?_
  · exact .use <| .assign (.fixedUsing quoted [.rds] hs.isVariable List.mem_cons_self
        (.append (by decide)) (by decide) (by decide) <| .inside hs.stays <|
        .last (by decide)) <|
      .indent <|
      .line (.fixedUsing quoted [.ec2] (by decide) <| .inside (stays_escape rfl _) <|
        .last (by decide)) <|
      .line (engine _) <|
      .line (.fixed .code (by decide) <|
        .name hn.isVariable (List.mem_cons_of_mem _ network) (.fixed (by decide)) <|
        .last (by decide)) <|
      .line (.fixed .code (by decide) <|
        .name (hs.satellite _) (List.mem_cons_of_mem _ group) (.fixed (by decide)) <|
        .last (by decide)) .nil
  · exact .line (credentials _) <|
      .line (.fixed quoted (by decide) <| .inside (stays_escape rfl _) <|
        .last (by decide)) <|
      .line (.fixed .code (by decide) <| .number _ (.fixed (by decide)) <|
        .last (by decide)) <|
      .line (.last (by decide)) <| .dedent <| .line (.last (by decide)) <|
      .define List.mem_cons_self .nil

theorem steps_faithful (d : Database) (stackName : String) (isPublic : Bool) (hs : symbol.Legible)
    (hn : net.Legible) : Faithful (d.steps settings stackName symbol net isPublic) := by
  let group := (symbol.satellite .securityGroup).var
  have grouped : Honest [] (securityGroup symbol net) [group, net.var] [.ec2] :=
    securityGroup_honest hs hn
  have declared : Honest [group, net.var]
      (d.declaration (databaseName settings stackName symbol) symbol net isPublic)
      [symbol.var, group, net.var] _ :=
    d.declaration_honest _ isPublic hs hn (by simp) (by simp [group])
  refine ⟨_, _, grouped.append declared, fun m => ?_⟩
  cases isPublic <;> simp [steps, securityGroup, declaration] <;> grind

end Database

/-! ## 6. Buckets -/

namespace Bucket

theorem visibility_honest (known : List String) (b : Bucket) :
    Honest known b.visibility known (if b.index.isSome then [.s3] else []) := by
  unfold visibility
  cases b.index with
  | none => exact .line (.last (by decide)) .nil
  | some index =>
    simp only [String.append_assoc]
    exact .line (.last (by decide)) <|
      .line (.lastUsing [.s3] (by decide)) <|
      .line (.fixed quoted (by decide) <| .inside (stays_escape rfl _) <|
        .last (by decide)) <|
      .line (.fixed quoted (by decide) <| .inside (stays_escape rfl _) <|
        .last (by decide)) .nil

theorem declaration_honest (b : Bucket) (hs : symbol.Legible) :
    Honest known (b.declaration symbol) (symbol.var :: known)
      ([.s3] ++ (if b.index.isSome then [.s3] else []) ++ []) := by
  unfold declaration
  simp only [String.append_assoc]
  refine (Honest.append ?_ (visibility_honest (symbol.var :: known) b)).append ?_
  · exact .use <| .assign (.fixedUsing quoted [.s3] hs.isVariable List.mem_cons_self
        (.append (by decide)) (by decide) (by decide) <| .inside hs.stays <|
        .last (by decide)) <|
      .indent <| .line (.last (by decide)) .nil
  · exact .line (.last (by decide)) <| .dedent <| .line (.last (by decide)) <|
      .define List.mem_cons_self .nil

theorem deployment_honest (path : String) (hs : symbol.Legible) (own : symbol.var ∈ known) :
    Honest known (deployment symbol path) known [.s3Deployment, .s3Deployment] := by
  unfold deployment
  simp only [String.append_assoc]
  exact .use <| .line (.fixedUsing quoted [.s3Deployment] (by decide) <|
      .inside (hs.stays_satellite .deployment) <| .last (by decide)) <|
    .indent <|
    .line (.fixedUsing quoted [.s3Deployment] (by decide) <|
      .inside (stays_escape rfl _) <| .last (by decide)) <|
    .line (.fixed .code (by decide) <| .nameLast hs.isVariable own) <|
    .dedent <| .line (.last (by decide)) .nil

theorem address_spells (nodeId : String) (hs : symbol.Legible) (own : symbol.var ∈ known) :
    Spells known .code (Fragment.outputLine (address nodeId symbol)) [] := by
  unfold Fragment.outputLine address
  simp only [String.append_assoc, String.reduceAppend]
  exact .fixed quoted (by decide) <| .inside hs.stays <| .fixed .code (by decide) <|
    .name hs.isVariable own (.fixed (by decide)) <| .last (by decide)

theorem steps_eq (b : Bucket) (nodeId : String) :
    b.steps nodeId symbol = b.declaration symbol ++ b.appPath.elim [] (deployment symbol) ++
      if b.index.isSome then [.output (address nodeId symbol)] else [] := by
  unfold steps
  cases b.appPath <;> rfl

theorem steps_faithful (b : Bucket) (nodeId : String) (hs : symbol.Legible) :
    Faithful (b.steps nodeId symbol) := by
  have declared : Honest [] (b.declaration symbol) [symbol.var] _ := b.declaration_honest hs
  have deployed : Honest [symbol.var] (b.appPath.elim [] (deployment symbol)) [symbol.var]
      (if b.appPath.isSome then [.s3Deployment, .s3Deployment] else []) := by
    cases b.appPath with
    | none => exact .nil
    | some path => exact deployment_honest path hs List.mem_cons_self
  have addressed : Honest [symbol.var]
      (if b.index.isSome then [.output (address nodeId symbol)] else []) [symbol.var] [] := by
    cases b.index with
    | none => exact .nil
    | some _ => exact .output (address_spells nodeId hs List.mem_cons_self) .nil
  rw [steps_eq]
  refine ⟨_, _, (declared.append deployed).append addressed, fun m => ?_⟩
  cases b.appPath <;> cases hi : b.index <;> simp [declaration, visibility, deployment, hi]

end Bucket

/-- **The steps that declare a node say what they announce.** -/
theorem Declares.faithful {s : Scope} {n : Node} {steps : List Fragment.Step}
    (h : Declares s n symbol steps) (hs : symbol.Legible)
    (hn : ∀ net, s.network? n = some net → net.Legible)
    (policy : Stays '\'' s.settings.managedPolicy) : Faithful steps := by
  cases h with
  | vpc kind => exact network_faithful hs
  | server kind read within => exact Server.steps_faithful _ _ _ hs (hn _ within) policy
  | database kind read within => exact Database.steps_faithful _ _ _ hs (hn _ within)
  | bucket kind read => exact Bucket.steps_faithful _ _ hs

end Resource

/-! ## 7. Rules -/

namespace Access

open Fragment (Honest Faithful)
open Resource (quoted)

variable {target source : Symbol} {known : List String}

end Access

end InfraDiagram
