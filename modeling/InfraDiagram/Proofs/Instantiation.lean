import InfraDiagram.Proofs.DeclarationLines
import InfraDiagram.Proofs.DistinctIds

/-!
# Which classes a program instantiates

A step that registers something calls a class with `self` and the id (`instantiated?`). The class is
told by the code before the first literal, so no text of a diagram can feign one there. The
declaration of a server or database instantiates one security group, that of a server one role, and
every declaration as many outputs as it has (`Resource.Declares.instantiates`). No other step writes
such a call (`Stack.instancesOf_programTexts`), and unless the managed policy leaves its literal the
text of the program has no other line that makes one (`Stack.sourceInstances_eq`).
-/

namespace InfraDiagram

open Literal Reading

/-! ## 1. The lines of a class -/

/-- **The lines among some that instantiate a class.** -/
def instancesOf (called : String) (texts : List String) : List String :=
  texts.filter fun text => instantiated? text == some called

/-- The lines of a class among those that have literals. -/
def madeBy (called : String) (ls : List Layout) : List String :=
  (ls.filter fun l => l.class? == some called).map Layout.written

section MadeBy

variable {called : String} {l : Layout} {ls ms : List Layout}

theorem madeBy_append : madeBy called (ls ++ ms) = madeBy called ls ++ madeBy called ms := by
  rw [madeBy, List.filter_append, List.map_append, madeBy, madeBy]

theorem madeBy_cons_other (h : l.class? ≠ some called) :
    madeBy called (l :: ls) = madeBy called ls := by
  rw [madeBy, List.filter_cons_of_neg (by rw [beq_iff_eq]; exact h), madeBy]

end MadeBy

/-- Only lines that have literals instantiate something. -/
theorem Fragment.Lays.instancesOf {steps : List Fragment.Step} {ls : List Layout}
    (h : Fragment.Lays steps ls) (opened : ∀ l ∈ ls, l.Opened) (origin : Origin) (called : String) :
    instancesOf called (Fragment.build origin steps).texts = madeBy called ls := by
  have written : ∀ {l ls texts}, Layout.Opened l → InfraDiagram.instancesOf called texts =
      madeBy called ls →
      InfraDiagram.instancesOf called (l.written :: texts) = madeBy called (l :: ls) := by
    intro l ls texts opens ih
    unfold InfraDiagram.instancesOf madeBy at ih ⊢
    rw [List.filter_cons, List.filter_cons, instantiated?_written opens, ih]
    split
    · rw [List.map_cons]
    · rfl
  rw [Fragment.texts_build]
  induction h with
  | nil => rfl
  | line laid _ ih =>
    obtain ⟨first, opened⟩ := List.forall_mem_cons.mp opened
    rw [List.filterMap_cons_some (f := Fragment.Step.text?) rfl, laid, written first (ih opened)]
  | output laid _ ih =>
    obtain ⟨first, opened⟩ := List.forall_mem_cons.mp opened
    rw [List.filterMap_cons_some (f := Fragment.Step.text?) rfl, laid, written first (ih opened)]
  | code code _ ih =>
    have none := instantiated?_of_constructId? (constructId?_of_isCode code)
    rw [List.filterMap_cons_some (f := Fragment.Step.text?) rfl, InfraDiagram.instancesOf,
      List.filter_cons_of_neg (by rw [none]; simp)]
    exact ih opened
  | silent quiet _ ih => rw [List.filterMap_cons_none quiet, ih opened]

/-! ## 2. Code before literals -/

/-- Code that calls a class with `self`, after something that belongs to no class. -/
def callsAlone (cs : List Char) : Bool :=
  decide (selfArgument <:+ cs) &&
    (cs.reverse.drop selfArgument.length).any fun c => !isClassChar c

theorem takeWhile_append_of_any {p : Char → Bool} : ∀ {xs : List Char} (ys : List Char),
    xs.any (fun c => !p c) = true → (xs ++ ys).takeWhile p = xs.takeWhile p
  | x :: xs, ys, h => by
      rw [List.cons_append, List.takeWhile_cons, List.takeWhile_cons]
      cases hx : p x with
      | false => rfl
      | true =>
        rw [List.any_cons, hx, Bool.not_true, Bool.false_or] at h
        simp only [if_true, takeWhile_append_of_any ys h]

/-- The class is the same, whatever stands before such code. -/
theorem classCalled?_append {vs cs : List Char} (h : callsAlone cs = true) :
    classCalled? (vs ++ cs) = classCalled? cs := by
  rw [callsAlone, Bool.and_eq_true, decide_eq_true_eq] at h
  obtain ⟨own, stops⟩ := h
  have long : selfArgument.length ≤ cs.reverse.length := by
    rw [List.length_reverse]
    exact own.length_le
  rw [classCalled?, if_pos (own.trans (List.suffix_append _ _)), classCalled?, if_pos own,
    List.reverse_append, List.drop_append_of_le_length long, takeWhile_append_of_any _ stops]

section Classes

variable {v text tail called : String} {cs : List Char} {slots : List Slot}

theorem class?_fixed (h : classCalled? cs.dropLast = some called) :
    Layout.class? ⟨.asIs (String.ofList cs) text :: slots, tail⟩ = some called := by
  show classCalled? (String.ofList cs).toList.dropLast = _
  rw [String.toList_ofList, h]

theorem class?_after (h : classCalled? cs.dropLast = some called)
    (alone : callsAlone cs.dropLast = true) :
    Layout.class? ⟨.asIs (v ++ String.ofList cs) text :: slots, tail⟩ = some called := by
  have nonempty : cs ≠ [] := by
    rintro rfl
    revert h
    simp [classCalled?, selfArgument]
  show classCalled? (v ++ String.ofList cs).toList.dropLast = _
  rw [String.toList_append, String.toList_ofList, List.dropLast_append_of_ne_nil nonempty,
    classCalled?_append alone, h]

/-- A literal that is no first argument after `self` follows no class. -/
theorem class?_other {s : Slot} (h : ¬ PrecedesId s.lead) :
    Layout.class? ⟨s :: slots, tail⟩ ≠ some called := by
  have none : Layout.class? ⟨s :: slots, tail⟩ = none := if_neg h
  rw [none]
  exact (Option.some_ne_none called).symm

theorem class?_textLayout {lead : String} (h : ¬ PrecedesId lead) :
    (Resource.textLayout lead text tail).class? ≠ some called := class?_other h

end Classes

/-! ## 3. What declarations instantiate -/

namespace Resource

/-- The classes that are counted: those of groups, roles and outputs. -/
def counted : List String := ["ec2.SecurityGroup", "iam.Role", "cdk.CfnOutput"]

variable {symbol net : Symbol} {settings : Settings} {called : String}

@[simp] theorem class?_groupLayout : (groupLayout symbol net).class? = some "ec2.SecurityGroup" :=
  class?_after (by decide) (by decide)

@[simp] theorem class?_roleLayout : (roleLayout symbol).class? = some "iam.Role" :=
  class?_after (by decide) (by decide)

@[simp] theorem class?_outputLayout (o : Output) : (outputLayout o).class? = some "cdk.CfnOutput" :=
  class?_fixed (by decide)

/-- The line that declares the role of an owner. -/
def roleLine (owner : Symbol) : String :=
  (owner.satellite .role).var ++ "=iam.Role(self, '" ++ (owner.satellite .role).resource
    ++ "', assumed_by=iam.ServicePrincipal('ec2.amazonaws.com'))"

@[simp] theorem groupLayout_written :
    (groupLayout symbol net).written = groupLine symbol net.var := by
  simp only [groupLayout, groupLine, Layout.written_asIs, Layout.written_nil, String.append_assoc]

@[simp] theorem roleLayout_written : (roleLayout symbol).written = roleLine symbol := by
  have trusted : "', assumed_by=iam.ServicePrincipal('ec2.amazonaws.com'))" =
    "', assumed_by=iam.ServicePrincipal('" ++ ("ec2.amazonaws.com" ++ "'))") := rfl
  simp only [roleLayout, roleLine, trusted, Layout.written_asIs, Layout.written_nil,
    String.append_assoc]

@[simp] theorem outputLayout_written (o : Output) :
    (outputLayout o).written = Fragment.outputLine o := by
  unfold outputLayout Fragment.outputLine
  rw [Layout.written_asIs, Layout.written_nil]
  simp only [String.append_assoc]

section Counted

variable (hc : called ∈ counted)
include hc

theorem madeBy_networkLayout : madeBy called [networkLayout symbol settings] = [] := by
  have network : (networkLayout symbol settings).class? = some "ec2.Vpc" :=
    class?_after (by decide) (by decide)
  have other : ∀ c ∈ counted, some "ec2.Vpc" ≠ some c := by decide
  rw [madeBy_cons_other (network ▸ other called hc)]
  rfl

theorem Server.madeBy_own (s : Server) : madeBy called (s.ownLayouts symbol) = [] := by
  have image : madeBy called (s.ami.elim [] fun ami => [imageLayout s.zone ami]) = [] := by
    cases s.ami with
    | none => rfl
    | some ami =>
      exact madeBy_cons_other (class?_other
        (not_precedesId_after (List.cons_ne_nil _ _) (by decide)))
  have head : (headLayout " = ec2.Instance(self, '" symbol).class? = some "ec2.Instance" :=
    class?_after (by decide) (by decide)
  have other : ∀ c ∈ counted, some "ec2.Instance" ≠ some c := by decide
  rw [ownLayouts, madeBy_append, image, madeBy_cons_other (head ▸ other called hc),
    madeBy_cons_other (class?_textLayout (not_precedesId_fixed (by decide)))]
  rfl

theorem Server.madeBy_application (path : String) :
    madeBy called (applicationLayouts symbol path) = [] := by
  have asset : (assetLayout symbol path).class? = some "s3assets.Asset" :=
    class?_after (by decide) (by decide)
  have other : ∀ c ∈ counted, some "s3assets.Asset" ≠ some c := by decide
  have copy : (copyLayout symbol).class? ≠ some called :=
    class?_other (not_precedesId_after (List.cons_ne_nil _ _) (by decide))
  have unzip : (unzipLayout symbol).class? ≠ some called :=
    class?_other (not_precedesId_after (List.cons_ne_nil _ _) (by decide))
  rw [applicationLayouts, madeBy_cons_other (asset ▸ other called hc), madeBy_cons_other copy,
    madeBy_cons_other unzip]
  rfl

/-- Of the lines of a server, those of its group, its role and its address are counted. -/
theorem Server.madeBy_layouts (s : Server) (nodeId : String) :
    madeBy called (s.layouts settings nodeId symbol net) =
      madeBy called [groupLayout symbol net, roleLayout symbol,
        outputLayout (address nodeId symbol)] := by
  have applied : madeBy called (s.appPath.elim [] (applicationLayouts symbol)) = [] := by
    cases s.appPath with
    | none => rfl
    | some path => exact madeBy_application hc path
  have scripted :
      madeBy called (s.userData.elim [] fun text => [scriptLayout symbol text]) = [] := by
    cases s.userData with
    | none => rfl
    | some text =>
      exact madeBy_cons_other (class?_other
        (not_precedesId_after (List.cons_ne_nil _ _) (by decide)))
  have policy : madeBy called [policyLayout symbol settings] = [] :=
    madeBy_cons_other (class?_other
      (not_precedesId_after (List.cons_ne_nil _ _) (by decide)))
  have split : [groupLayout symbol net] ++ [roleLayout symbol, policyLayout symbol settings] =
      [groupLayout symbol net, roleLayout symbol] ++ [policyLayout symbol settings] := rfl
  rw [layouts, split, madeBy_append, madeBy_append, madeBy_append, madeBy_append, madeBy_append,
    policy, s.madeBy_own hc, applied, scripted, List.append_nil, List.append_nil, List.append_nil,
    List.append_nil, ← madeBy_append]
  rfl

/-- Of the lines of a database, that of its group is counted. -/
theorem Database.madeBy_layouts (d : Database) (name : String) :
    madeBy called (d.layouts name symbol net) = madeBy called [groupLayout symbol net] := by
  have head : (headLayout " = rds.DatabaseInstance(self, '" symbol).class? =
      some "rds.DatabaseInstance" := class?_after (by decide) (by decide)
  have other : ∀ c ∈ counted, some "rds.DatabaseInstance" ≠ some c := by decide
  have credentials : (credentialsLayout d.engine).class? ≠ some called :=
    class?_other (not_precedesId_fixed (by decide))
  have own : madeBy called (d.ownLayouts name symbol) = [] := by
    rw [ownLayouts, madeBy_append, madeBy_cons_other (head ▸ other called hc),
      madeBy_cons_other (class?_textLayout (not_precedesId_fixed (by decide))),
      madeBy_cons_other credentials,
      madeBy_cons_other (class?_textLayout (not_precedesId_fixed (by decide)))]
    rfl
  rw [layouts, madeBy_append, own, List.append_nil]

/-- Of the lines of a bucket, that of its address is counted. -/
theorem Bucket.madeBy_layouts (b : Bucket) (nodeId : String) :
    madeBy called (b.layouts nodeId symbol) =
      madeBy called (if b.index.isSome then [outputLayout (address nodeId symbol)] else []) := by
  have head : (headLayout " = s3.Bucket(self, '" symbol).class? = some "s3.Bucket" :=
    class?_after (by decide) (by decide)
  have first : madeBy called [headLayout " = s3.Bucket(self, '" symbol] = [] := by
    have other : ∀ c ∈ counted, some "s3.Bucket" ≠ some c := by decide
    exact madeBy_cons_other (head ▸ other called hc)
  have paged : madeBy called (b.index.elim [] b.pageLayouts) = [] := by
    cases b.index with
    | none => rfl
    | some index =>
      rw [Option.elim_some, pageLayouts,
        madeBy_cons_other (class?_textLayout (not_precedesId_fixed (by decide))),
        madeBy_cons_other (class?_textLayout (not_precedesId_fixed (by decide)))]
      rfl
  have deployed : madeBy called (b.appPath.elim [] (deploymentLayouts symbol)) = [] := by
    cases b.appPath with
    | none => rfl
    | some path =>
      have deployment : (deploymentLayout symbol).class? = some "s3_deployment.BucketDeployment" :=
        class?_fixed (by decide)
      have other : ∀ c ∈ counted, some "s3_deployment.BucketDeployment" ≠ some c := by decide
      rw [Option.elim_some, deploymentLayouts, madeBy_cons_other (deployment ▸ other called hc),
        madeBy_cons_other (class?_textLayout (not_precedesId_fixed (by decide)))]
      rfl
  rw [layouts, madeBy_append, madeBy_append, madeBy_append, first, paged, deployed, List.nil_append,
    List.nil_append, List.nil_append]

end Counted

/-- **What the declaration of a node instantiates**: a server or database one security group, a
    server one role, and outputs as many as it has. -/
structure Instantiates (s : Scope) (n : Node) (symbol : Symbol) (f : Fragment) : Prop where
  group : n.isCompute = true → ∃ net, s.network? n = some net ∧
    instancesOf "ec2.SecurityGroup" f.texts = [groupLine symbol net.var]
  noGroup : n.isCompute = false → instancesOf "ec2.SecurityGroup" f.texts = []
  role : n.kind = .server → instancesOf "iam.Role" f.texts = [roleLine symbol]
  noRole : n.kind ≠ .server → instancesOf "iam.Role" f.texts = []
  outputs : instancesOf "cdk.CfnOutput" f.texts = f.outputs.map Fragment.outputLine

section Instantiates

variable {s : Scope} {n : Node} (hs : symbol.Legible)
  (hn : ∀ net, s.network? n = some net → net.Legible)
include hs hn

theorem Quotes.opened {ls : List Layout} (h : Quotes s n symbol ls) : ∀ l ∈ ls, l.Opened := by
  intro l hl
  rcases h.sound hs hn l hl with sound | ⟨-, rfl⟩
  · exact sound.opened
  · exact ⟨_, _, _, rfl, opens_policyLead hs⟩

theorem network_instantiates (kind : n.kind = .vpc) (origin : Origin) :
    Instantiates s n symbol (Fragment.build origin (network symbol s.settings)) := by
  have lines : ∀ c ∈ counted,
      instancesOf c (Fragment.build origin (network symbol s.settings)).texts = [] := by
    intro c hc
    rw [(network_lays symbol s.settings).instancesOf (Quotes.opened hs hn (.vpc kind)) origin,
      madeBy_networkLayout hc]
  refine ⟨fun compute => ?_, fun _ => lines _ (by decide), fun server => ?_,
    fun _ => lines _ (by decide), ?_⟩
  · rw [Node.isCompute, kind] at compute
    cases compute
  · rw [kind] at server
    cases server
  · rw [lines _ (by decide), Fragment.outputs_build]
    rfl

theorem Server.steps_instantiates (kind : n.kind = .server) {server : Server}
    (read : Server.ofNode s.settings n = .ok server) (within : s.network? n = some net)
    (isPublic : Bool) (origin : Origin) :
    Instantiates s n symbol
      (Fragment.build origin (server.steps s.settings n.id symbol net isPublic)) := by
  have lines : ∀ c ∈ counted,
      instancesOf c (Fragment.build origin
        (server.steps s.settings n.id symbol net isPublic)).texts =
        madeBy c [groupLayout symbol net, roleLayout symbol,
          outputLayout (address n.id symbol)] := by
    intro c hc
    rw [(server.steps_lays n.id isPublic hs (hn net within)).instancesOf
      (Quotes.opened hs hn (.server kind read within)) origin, server.madeBy_layouts hc]
  refine ⟨fun _ => ⟨net, within, ?_⟩, fun compute => ?_, fun _ => ?_, fun other => ?_, ?_⟩
  · rw [lines _ (by decide)]
    simp [madeBy]
  · rw [Node.isCompute, kind] at compute
    cases compute
  · rw [lines _ (by decide)]
    simp [madeBy]
  · exact absurd kind other
  · rw [lines _ (by decide), Fragment.outputs_build, server.outputs_steps]
    simp [madeBy]

theorem Database.steps_instantiates (kind : n.kind = .database) {database : Database}
    (read : Database.ofNode s.settings n = .ok database) (within : s.network? n = some net)
    (isPublic : Bool) (origin : Origin) :
    Instantiates s n symbol
      (Fragment.build origin (database.steps s.settings s.stackName symbol net isPublic)) := by
  have lines : ∀ c ∈ counted,
      instancesOf c (Fragment.build origin
        (database.steps s.settings s.stackName symbol net isPublic)).texts =
        madeBy c [groupLayout symbol net] := by
    intro c hc
    rw [(database.steps_lays s.stackName isPublic hs (hn net within)).instancesOf
      (Quotes.opened hs hn (.database kind read within)) origin, database.madeBy_layouts hc]
  refine ⟨fun _ => ⟨net, within, ?_⟩, fun compute => ?_, fun server => ?_, fun _ => ?_, ?_⟩
  · rw [lines _ (by decide)]
    simp [madeBy]
  · rw [Node.isCompute, kind] at compute
    cases compute
  · rw [kind] at server
    cases server
  · rw [lines _ (by decide)]
    simp [madeBy]
  · rw [lines _ (by decide), Fragment.outputs_build, database.outputs_steps]
    simp [madeBy]

theorem Bucket.steps_instantiates (kind : n.kind = .bucket) {bucket : Bucket}
    (read : Bucket.ofNode n = .ok bucket) (origin : Origin) :
    Instantiates s n symbol (Fragment.build origin (bucket.steps n.id symbol)) := by
  have lines : ∀ c ∈ counted,
      instancesOf c (Fragment.build origin (bucket.steps n.id symbol)).texts =
        madeBy c (if bucket.index.isSome then [outputLayout (address n.id symbol)] else []) := by
    intro c hc
    rw [(bucket.steps_lays n.id hs).instancesOf (Quotes.opened hs hn (.bucket kind read)) origin,
      bucket.madeBy_layouts hc]
  refine ⟨fun compute => ?_, fun _ => ?_, fun server => ?_, fun _ => ?_, ?_⟩
  · rw [Node.isCompute, kind] at compute
    cases compute
  · rw [lines _ (by decide)]
    split <;> simp [madeBy]
  · rw [kind] at server
    cases server
  · rw [lines _ (by decide)]
    split <;> simp [madeBy]
  · rw [lines _ (by decide), Fragment.outputs_build, bucket.outputs_steps]
    split <;> simp [madeBy]

/-- **The declaration of a node instantiates what its kind calls for**, whatever its texts are. -/
theorem Declares.instantiates {steps : List Fragment.Step} (h : Declares s n symbol steps)
    (origin : Origin) : Instantiates s n symbol (Fragment.build origin steps) := by
  cases h with
  | vpc kind => exact network_instantiates hs hn kind origin
  | server kind read within => exact Server.steps_instantiates hs hn kind read within _ origin
  | database kind read within => exact Database.steps_instantiates hs hn kind read within _ origin
  | bucket kind read => exact Bucket.steps_instantiates hs hn kind read origin

end Instantiates

/-- The default network instantiates nothing that is counted. -/
theorem instancesOf_defaultNetwork (hs : symbol.Legible) (hc : called ∈ counted) :
    instancesOf called (defaultNetwork symbol settings).texts = [] := by
  have opened : ∀ l ∈ [networkLayout symbol settings], l.Opened :=
    List.forall_mem_singleton.mpr (networkLayout_sound hs).opened
  rw [← madeBy_networkLayout hc]
  exact (network_lays symbol settings).instancesOf opened _ called

end Resource

/-! ## 4. What programs instantiate -/

theorem instancesOf_eq_nil {called : String} {texts : List String}
    (h : ∀ text ∈ texts, constructId? text = none) : instancesOf called texts = [] := by
  refine List.filter_eq_nil_iff.mpr fun text ht => ?_
  rw [instantiated?_of_constructId? (h text ht)]
  simp

theorem instancesOf_append (called : String) (texts texts' : List String) :
    instancesOf called (texts ++ texts') = instancesOf called texts ++ instancesOf called texts' :=
  List.filter_append ..

namespace Stack

variable {settings : Settings} {g : Graph} {name : String} {p : Parts}

/-- **The steps of a program instantiate what its declarations do**, whatever its edges are. -/
theorem instancesOf_programTexts (h : parts settings g name = .ok p) (called : String) :
    instancesOf called (programTexts settings name p) =
      p.declarations.flatMap fun f => instancesOf called f.texts := by
  have usable := (validate_eq_ok (compiled_of_parts h).admitted.usable).1
  have before : instancesOf called
      ((opening settings.stackClass (modulesOf p.fragments)).map Line.text) = [] :=
    instancesOf_eq_nil (List.forall_mem_map.mpr (constructId?_opening usable _))
  have after : instancesOf called ((closing settings.stackClass name).map Line.text) = [] :=
    instancesOf_eq_nil (List.forall_mem_map.mpr (constructId?_closing usable name))
  have rules : instancesOf called (p.rules.flatMap Fragment.texts) = [] := by
    refine instancesOf_eq_nil fun text ht => ?_
    obtain ⟨f, hf, ht⟩ := List.mem_flatMap.mp ht
    exact List.filterMap_eq_nil_iff.mp (rule_registers_nothing h hf).1 text ht
  rw [programTexts_eq, instancesOf_append, instancesOf_append, before, after, List.nil_append,
    List.append_nil, Parts.fragments, List.flatMap_append, instancesOf_append, rules,
    List.append_nil, instancesOf, List.filter_flatMap]
  rfl

/-- **The text of a program instantiates what its declarations do**, if the managed policy stays in
    its literal. -/
theorem sourceInstances_eq (h : parts settings g name = .ok p) (stays : PolicyStays settings g)
    (called : String) :
    sourceInstances called (program settings.stackClass name p.fragments) =
      p.declarations.flatMap fun f => instancesOf called f.texts := by
  rw [sourceInstances_program h stays]
  exact instancesOf_programTexts h called

end Stack

end InfraDiagram
