import InfraDiagram.Proofs.Declarations
import InfraDiagram.Proofs.Lines

/-!
# The lines of a declaration

The lines that declare a node fall into two groups. `Placed` are those that later results are about:
its security group, its network, the public subnets, its engine. All others are `Plain`: they begin
with a fixed word, or with the variable of the node followed by something that no rule begins with.

So a declaration says of the place of its node what it should (`Declares.mem_texts_iff_placed`), and
it contains no rules of access (`Declares.not_rule`).
-/

namespace InfraDiagram.Resource

open Fragment (Step Writes writes_line writes_output writes_indent writes_dedent writes_use
  writes_define writes_reference)
open Text

/-! ## 1. How lines begin -/

/-- Words with which lines of a declaration begin that say nothing of its place. -/
def plainWords : List String :=
  ["instance_type=ec2.InstanceType('", "machine_image=", "security_group=", "security_groups=[",
    "role=", ")", "cdk.CfnOutput(self, '", "credentials=rds.Credentials.from_generated_secret('",
    "database_name='", "allocated_storage=", "multi_az=False", "auto_delete_objects=True,",
    "public_read_access=True,", "public_read_access=False,",
    "block_public_access=s3.BlockPublicAccess.BLOCK_ACLS,", "website_index_document='",
    "website_error_document='", "removal_policy= cdk.RemovalPolicy.DESTROY",
    "s3_deployment.BucketDeployment(self, '", "sources=[s3_deployment.Source.asset('",
    "destination_bucket="]

/-- What follows the variable of a node in such lines. -/
def plainTails : List String :=
  [" = ec2.Vpc(self, '", " = ec2.Instance(self, '", " = rds.DatabaseInstance(self, '",
    " = s3.Bucket(self, '", "_role", "_asset", "_filepath",
    ".user_data.add_commands(f'cp \x7b", ".user_data.add_commands('unzip app.zip')",
    ".add_user_data('"]

/-- How the lines that place a node begin, apart from that of its group. -/
def placeWords : List String := ["vpc=", "vpc_subnets=", "engine=rds."]

/-- What follows the variable of a node where its group is declared. -/
def groupTail : String := "_sg = ec2.SecurityGroup(self, '"

/-- What follows a variable where a rule begins. -/
def ruleTails : List String :=
  ["_sg.add_ingress_rule(", "_sg.connections.allow_from(", ".secret.grant_read("]

/-- **What tells lines apart.** Words are not taken for variables, tails are not taken for digits
    of a variable, and of two that belong to different lines neither begins the other. -/
structure WordsApart : Prop where
  plainForeign : ∀ w ∈ plainWords, isForeign w = true
  plainOpen : ∀ p ∈ plainTails, beginsOpen p = true
  placeForeign : ∀ w ∈ placeWords, isForeign w = true
  placePlain : ∀ w ∈ placeWords, ∀ p ∈ plainWords, apart p w = true
  callOpen : ∀ q ∈ groupTail :: ruleTails, beginsOpen q = true
  callPlain : ∀ q ∈ groupTail :: ruleTails, ∀ p ∈ plainTails, apart p q = true
  groupRule : ∀ q ∈ ruleTails, apart groupTail q = true

theorem wordsApart : WordsApart := by
  constructor <;> decide +kernel

/-! ## 2. Lines that say nothing of networks, engines or rules -/

/-- **A plain line** begins with a plain word, or with the variable of a symbol and a plain tail. -/
def Plain (symbol : Symbol) (t : String) : Prop :=
  (∃ w ∈ plainWords, Begins w t) ∨ ∃ p ∈ plainTails, Begins (symbol.var ++ p) t

section Plain

variable {symbol : Symbol}

theorem Plain.word {w : String} (hw : w ∈ plainWords) (rest : String) :
    Plain symbol (w ++ rest) :=
  Or.inl ⟨w, hw, rest, rfl⟩

theorem Plain.alone {w : String} (hw : w ∈ plainWords) : Plain symbol w :=
  Or.inl ⟨w, hw, "", String.append_empty.symm⟩

theorem Plain.tail {p : String} (hp : p ∈ plainTails) (rest : String) :
    Plain symbol (symbol.var ++ (p ++ rest)) :=
  Or.inr ⟨p, hp, rest, String.append_assoc.symm⟩

theorem Plain.ending {p : String} (hp : p ∈ plainTails) : Plain symbol (symbol.var ++ p) :=
  Or.inr ⟨p, hp, "", String.append_empty.symm⟩

theorem Plain.satellite {k : Satellite} (hk : k.variableSuffix ∈ plainTails) (rest : String) :
    Plain symbol ((symbol.satellite k).var ++ rest) :=
  Or.inr ⟨k.variableSuffix, hk, rest, rfl⟩

theorem Plain.append {t : String} (h : Plain symbol t) (rest : String) :
    Plain symbol (t ++ rest) := by
  rcases h with ⟨w, hw, h⟩ | ⟨p, hp, h⟩
  · exact Or.inl ⟨w, hw, h.trans (Begins.append t rest)⟩
  · exact Or.inr ⟨p, hp, h.trans (Begins.append t rest)⟩

/-- No plain line declares a group or is a rule. -/
theorem Plain.not_begins {t : String} (h : Plain symbol t) {i : Nat}
    (hi : symbol.var = variableName i) {j : Nat} {q : String} (hq : q ∈ groupTail :: ruleTails) :
    ¬ Begins (variableName j ++ q) t := by
  intro hj
  rcases h with ⟨w, hw, h⟩ | ⟨p, hp, h⟩
  · exact not_begins_variable (wordsApart.plainForeign w hw) h j ((Begins.append _ _).trans hj)
  · rw [hi] at h
    exact not_begins_of_apart (wordsApart.plainOpen p hp) (wordsApart.callOpen q hq)
      (wordsApart.callPlain q hq p hp) h hj

/-- A word that places a node begins no plain line. -/
theorem Plain.not_begins_word {t : String} (h : Plain symbol t) {i : Nat}
    (hi : symbol.var = variableName i) {w : String} (hw : w ∈ placeWords) : ¬ Begins w t := by
  intro hb
  rcases h with ⟨p, hp, h⟩ | ⟨p, hp, h⟩
  · exact Begins.unique (wordsApart.placePlain w hw p hp) h hb
  · rw [hi] at h
    exact not_begins_variable (wordsApart.placeForeign w hw) hb i ((Begins.append _ _).trans h)

end Plain

/-! ## 3. The lines of a declaration -/

/-- The line that declares the security group of an owner in the network of a variable. -/
def groupLine (owner : Symbol) (network : String) : String :=
  (owner.satellite .securityGroup).var ++ " = ec2.SecurityGroup(self, '"
    ++ (owner.satellite .securityGroup).resource ++ "', vpc=" ++ network ++ ")"

/-- The line that places a resource in the network of a variable. -/
def placeLine (kind : NodeKind) (network : String) : String :=
  match kind with
  | .database => "vpc=" ++ network ++ ", "
  | _ => "vpc=" ++ network ++ ","

/-- The line that gives a database its engine. -/
def engineLine (engine : Engine) : String :=
  "engine=rds.DatabaseInstanceEngine." ++ engine.constant ++ ","

/-- **The lines that place a node**: its group, its network, public subnets, its engine. -/
inductive Placed (s : Scope) (n : Node) (symbol : Symbol) : String → Prop where
  | group {net : Symbol} (hc : n.isCompute = true) (within : s.network? n = some net) :
      Placed s n symbol (groupLine symbol net.var)
  | network {net : Symbol} (hc : n.isCompute = true) (within : s.network? n = some net) :
      Placed s n symbol (placeLine n.kind net.var)
  | subnets (hc : n.isCompute = true) (hp : s.graph.isPublic n.id = true) :
      Placed s n symbol publicSubnets
  | engine {engine : Engine} (hk : n.kind = .database) (he : Engine.ofNode? n = some engine) :
      Placed s n symbol (engineLine engine)

section Lines

variable {symbol : Symbol}

theorem output_plain (o : Output) : Writes (Plain symbol) (.output o) := by
  rw [writes_output]
  unfold Fragment.outputLine
  simp only [String.append_assoc]
  exact .word (by simp [plainWords]) _

theorem serverRole_plain (settings : Settings) :
    ∀ step ∈ serverRole symbol settings, Writes (Plain symbol) step := by
  simp only [serverRole, List.forall_mem_cons, writes_line, String.append_assoc]
  refine ⟨writes_use, .satellite ?_ _, .satellite ?_ _, writes_define, List.forall_mem_nil _⟩ <;>
    simp [plainTails, Satellite.variableSuffix]

theorem application_plain (path : String) :
    ∀ step ∈ Server.application symbol path, Writes (Plain symbol) step := by
  simp only [Server.application, List.forall_mem_cons, writes_line, String.append_assoc]
  refine ⟨writes_use, .satellite ?_ _, .satellite ?_ _, .tail ?_ _, .tail ?_ _, .ending ?_,
    writes_define, writes_define, List.forall_mem_nil _⟩ <;>
    simp [plainTails, Satellite.variableSuffix]

theorem script_plain (text : String) :
    ∀ step ∈ Server.script symbol text, Writes (Plain symbol) step := by
  simp only [Server.script, List.forall_mem_cons, writes_line, String.append_assoc]
  exact ⟨.tail (by simp [plainTails]) _, List.forall_mem_nil _⟩

theorem network_plain (settings : Settings) :
    ∀ step ∈ network symbol settings, Writes (Plain symbol) step := by
  simp only [Resource.network, List.forall_mem_cons, writes_line, String.append_assoc]
  exact ⟨writes_use, .tail (by simp [plainTails]) _, writes_define, List.forall_mem_nil _⟩

theorem visibility_plain (b : Bucket) : ∀ step ∈ b.visibility, Writes (Plain symbol) step := by
  unfold Bucket.visibility
  split
  · simp only [List.forall_mem_cons, writes_line, String.append_assoc]
    refine ⟨.alone ?_, .alone ?_, .word ?_ _, .word ?_ _, List.forall_mem_nil _⟩ <;>
      simp [plainWords]
  · simp only [List.forall_mem_cons, writes_line]
    exact ⟨.alone (by simp [plainWords]), List.forall_mem_nil _⟩

theorem deployment_plain (path : String) :
    ∀ step ∈ Bucket.deployment symbol path, Writes (Plain symbol) step := by
  simp only [Bucket.deployment, List.forall_mem_cons, writes_line, String.append_assoc]
  refine ⟨writes_use, .word ?_ _, writes_indent, .word ?_ _, .word ?_ _, writes_dedent, .alone ?_,
    List.forall_mem_nil _⟩ <;> simp [plainWords]

theorem bucket_plain (b : Bucket) (nodeId : String) :
    ∀ step ∈ b.steps nodeId symbol, Writes (Plain symbol) step := by
  simp only [Bucket.steps, Bucket.declaration, List.forall_mem_append, List.forall_mem_cons,
    writes_line, String.append_assoc]
  refine ⟨⟨⟨⟨⟨writes_use, .tail ?_ _, writes_indent, .alone ?_, List.forall_mem_nil _⟩,
    visibility_plain b⟩, .alone ?_, writes_dedent, .alone ?_, writes_define,
    List.forall_mem_nil _⟩, ?deployed⟩, ?published⟩
  case deployed =>
    split
    · exact deployment_plain _
    · exact List.forall_mem_nil _
  case published =>
    split
    · exact List.forall_mem_cons.mpr ⟨output_plain _, List.forall_mem_nil _⟩
    · exact List.forall_mem_nil _
  all_goals simp [plainWords, plainTails]

end Lines

section DeclaredLines

variable {s : Scope} {n : Node} {symbol : Symbol} {steps : List Step}

theorem Database.engine_of_ofNode {settings : Settings} {database : Database}
    (h : Database.ofNode settings n = .ok database) :
    Engine.ofNode? n = some database.engine := by
  obtain ⟨engine, he, h⟩ := Outcome.bind_eq_ok.mp h
  obtain ⟨instanceType, -, h⟩ := Outcome.bind_eq_ok.mp h
  obtain ⟨storage, -, h⟩ := Outcome.bind_eq_ok.mp h
  cases h
  exact Database.ofNode?_of_engineOf he

section Parts

variable {P : String → Prop} {net : Symbol} {isPublic : Bool}

theorem securityGroup_writes (group : P (groupLine symbol net.var)) :
    ∀ step ∈ securityGroup symbol net, Writes P step := by
  simp only [securityGroup, List.forall_mem_cons, writes_line]
  exact ⟨writes_use, writes_reference, group, writes_define, List.forall_mem_nil _⟩

theorem publicSubnets_writes (subnets : isPublic = true → P publicSubnets) :
    ∀ step ∈ (if isPublic then [Step.line publicSubnets] else []), Writes P step := by
  cases isPublic with
  | false => exact List.forall_mem_nil _
  | true => exact List.forall_mem_cons.mpr ⟨writes_line.mpr (subnets rfl), List.forall_mem_nil _⟩

theorem Server.declaration_writes (plain : ∀ {t : String}, Plain symbol t → P t) (server : Server)
    (place : P (placeLine .server net.var)) (subnets : isPublic = true → P publicSubnets) :
    ∀ step ∈ server.declaration symbol net isPublic, Writes P step := by
  simp only [Server.declaration, List.forall_mem_append, List.forall_mem_cons, writes_line]
  refine ⟨⟨⟨plain (.append (.append (.ending ?_) _) _), writes_indent,
    plain (.append (.word ?_ _) _), plain (.append (.word ?_ _) _), List.forall_mem_nil _⟩,
    publicSubnets_writes subnets⟩, place, plain (.append (.word ?_ _) _), plain (.word ?_ _),
    writes_dedent, plain (.alone ?_), writes_define, List.forall_mem_nil _⟩ <;>
    simp [plainWords, plainTails]

theorem Database.declaration_writes (plain : ∀ {t : String}, Plain symbol t → P t)
    (database : Database) (name : String) (place : P (placeLine .database net.var))
    (engine : P (engineLine database.engine)) (subnets : isPublic = true → P publicSubnets) :
    ∀ step ∈ database.declaration name symbol net isPublic, Writes P step := by
  simp only [Database.declaration, List.forall_mem_append, List.forall_mem_cons, writes_line]
  refine ⟨⟨⟨writes_use, plain (.append (.append (.ending ?_) _) _), writes_indent,
    plain (.append (.word ?_ _) _), engine, place, plain (.append (.word ?_ _) _),
    List.forall_mem_nil _⟩, publicSubnets_writes subnets⟩, plain (.append (.word ?_ _) _),
    plain (.append (.word ?_ _) _), plain (.append (.word ?_ _) _), plain (.alone ?_),
    writes_dedent, plain (.alone ?_), writes_define, List.forall_mem_nil _⟩ <;>
    simp [plainWords, plainTails]

end Parts

/-- **The lines of a declaration** place its node or are plain. -/
theorem Declares.writes (h : Declares s n symbol steps) :
    ∀ step ∈ steps, Writes (fun t => Placed s n symbol t ∨ Plain symbol t) step := by
  have plain : ∀ {l : List Step}, (∀ step ∈ l, Writes (Plain symbol) step) →
      ∀ step ∈ l, Writes (fun t => Placed s n symbol t ∨ Plain symbol t) step :=
    fun hl step hs => (hl step hs).mono fun _ => Or.inr
  cases h with
  | vpc kind => exact plain (network_plain _)
  | @server kind server read net within =>
    have hc : n.isCompute = true := by rw [Node.isCompute, kind]; rfl
    have place : Placed s n symbol (placeLine .server net.var) := kind ▸ .network hc within
    simp only [Server.steps, List.forall_mem_append]
    refine ⟨⟨⟨⟨⟨securityGroup_writes (.inl (.group hc within)), plain (serverRole_plain _)⟩,
      server.declaration_writes .inr (.inl place) fun hp => .inl (.subnets hc hp)⟩, ?_⟩, ?_⟩,
      plain (List.forall_mem_singleton.mpr (output_plain _))⟩
    · split
      · exact plain (application_plain _)
      · exact List.forall_mem_nil _
    · split
      · exact plain (script_plain _)
      · exact List.forall_mem_nil _
  | @database kind database read net within =>
    have hc : n.isCompute = true := by rw [Node.isCompute, kind]; rfl
    have place : Placed s n symbol (placeLine .database net.var) := kind ▸ .network hc within
    have engine : Placed s n symbol (engineLine database.engine) :=
      .engine kind (Database.engine_of_ofNode read)
    simp only [Database.steps, List.forall_mem_append]
    exact ⟨securityGroup_writes (.inl (.group hc within)),
      database.declaration_writes .inr _ (.inl place) (.inl engine) fun hp => .inl (.subnets hc hp)⟩
  | bucket kind read => exact plain (bucket_plain _ _)

theorem Placed.isCompute {t : String} (h : Placed s n symbol t) : n.isCompute = true := by
  cases h with
  | group hc within => exact hc
  | network hc within => exact hc
  | subnets hc hp => exact hc
  | engine hk he => rw [Node.isCompute, hk]; rfl

/-- The lines that place a node are all there. -/
theorem Declares.line_of_placed (h : Declares s n symbol steps) {t : String}
    (ht : Placed s n symbol t) : .line t ∈ steps := by
  have hc := ht.isCompute
  cases h with
  | vpc kind => rw [Node.isCompute, kind] at hc; cases hc
  | @server kind server read net within =>
    cases ht with
    | group _ w =>
      cases within.symm.trans w
      simp [Server.steps, securityGroup, groupLine]
    | network _ w =>
      cases within.symm.trans w
      simp [Server.steps, Server.declaration, placeLine, kind]
    | subnets _ hp => simp [Server.steps, Server.declaration, hp]
    | engine hk he => rw [kind] at hk; cases hk
  | @database kind database read net within =>
    cases ht with
    | group _ w =>
      cases within.symm.trans w
      simp [Database.steps, securityGroup, groupLine]
    | network _ w =>
      cases within.symm.trans w
      simp [Database.steps, Database.declaration, placeLine, kind]
    | subnets _ hp => simp [Database.steps, Database.declaration, hp]
    | engine _ he =>
      rw [Option.some.inj (he.symm.trans (Database.engine_of_ofNode read))]
      -- the line is the fifth of its list: comparing it with the other lines is slow
      refine List.mem_append_right _ (List.mem_append_left _ (List.mem_append_left _ ?_))
      exact .tail _ (.tail _ (.tail _ (.tail _ (.head _))))
  | bucket kind read => rw [Node.isCompute, kind] at hc; cases hc

/-! ## 4. What a declaration says of the place of its node -/

theorem groupLine_begins (owner : Symbol) (v : String) :
    Begins (owner.var ++ groupTail) (groupLine owner v) := by
  refine ⟨(owner.satellite .securityGroup).resource ++ ("', vpc=" ++ (v ++ ")")), ?_⟩
  have e : groupTail = "_sg" ++ " = ec2.SecurityGroup(self, '" := rfl
  simp only [groupLine, Symbol.satellite, Satellite.variableSuffix, String.append_assoc, e]

theorem placeLine_begins (kind : NodeKind) (v : String) : Begins "vpc=" (placeLine kind v) := by
  cases kind <;> exact (Begins.append _ _).trans (Begins.append _ _)

theorem engineLine_begins (engine : Engine) : Begins "engine=rds." (engineLine engine) := by
  cases engine
  · exact ⟨"DatabaseInstanceEngine.MYSQL,", rfl⟩
  · exact ⟨"DatabaseInstanceEngine.POSTGRES,", rfl⟩

theorem publicSubnets_begins : Begins "vpc_subnets=" publicSubnets :=
  ⟨"ec2.SubnetSelection(subnet_type=ec2.SubnetType.PUBLIC),", rfl⟩

theorem placeLine_inj {kind : NodeKind} {v w : String} (h : placeLine kind v = placeLine kind w) :
    v = w := by
  cases kind <;>
    exact String.append_right_inj _ |>.mp (String.append_left_inj _ |>.mp h)

theorem groupLine_inj {owner : Symbol} {v w : String} (h : groupLine owner v = groupLine owner w) :
    v = w :=
  (String.append_right_inj _).mp ((String.append_left_inj _).mp h)

theorem engineLine_inj {d e : Engine} (h : engineLine d = engineLine e) : d = e := by
  by_contra hne
  cases d <;> cases e <;> revert h <;> revert hne <;> decide

theorem Declares.mem_texts (h : Declares s n symbol steps) {o : Origin} {t : String}
    (ht : t ∈ (Fragment.build o steps).texts) : Placed s n symbol t ∨ Plain symbol t := by
  obtain ⟨step, hs, e⟩ := Fragment.mem_texts_build.mp ht
  exact h.writes step hs t e

theorem Declares.mem_texts_of_placed (h : Declares s n symbol steps) {o : Origin} {t : String}
    (ht : Placed s n symbol t) : t ∈ (Fragment.build o steps).texts :=
  Fragment.mem_texts_build.mpr ⟨.line t, h.line_of_placed ht, rfl⟩

section Exact

variable {i : Nat} (hi : symbol.var = variableName i)
include hi

theorem groupLine_foreign {w : String} (hw : w ∈ placeWords) (v : String) :
    ¬ Begins w (groupLine symbol v) := by
  intro hb
  have hg := groupLine_begins symbol v
  rw [hi] at hg
  exact not_begins_variable (wordsApart.placeForeign w hw) hb i ((Begins.append _ _).trans hg)

theorem placed_publicSubnets_iff :
    Placed s n symbol publicSubnets ↔ n.isCompute = true ∧ s.graph.isPublic n.id = true := by
  refine ⟨fun h => ⟨h.isCompute, ?_⟩, fun h => .subnets h.1 h.2⟩
  have hb := publicSubnets_begins
  generalize e : publicSubnets = t at h hb
  cases h with
  | group hc within => exact absurd hb (groupLine_foreign hi (by simp [placeWords]) _)
  | network hc within => exact absurd hb (Begins.unique (by decide) (placeLine_begins _ _))
  | subnets hc hp => exact hp
  | engine hk he => exact absurd hb (Begins.unique (by decide) (engineLine_begins _))

theorem placed_placeLine_iff {v : String} :
    Placed s n symbol (placeLine n.kind v) ↔
      n.isCompute = true ∧ ∃ net, s.network? n = some net ∧ v = net.var := by
  refine ⟨fun h => ⟨h.isCompute, ?_⟩, fun ⟨hc, net, within, e⟩ => e ▸ .network hc within⟩
  have hb := placeLine_begins n.kind v
  generalize e : placeLine n.kind v = t at h hb
  cases h with
  | group hc within => exact absurd hb (groupLine_foreign hi (by simp [placeWords]) _)
  | network hc within => exact ⟨_, within, placeLine_inj e⟩
  | subnets hc hp => exact absurd hb (Begins.unique (by decide) publicSubnets_begins)
  | engine hk he => exact absurd hb (Begins.unique (by decide) (engineLine_begins _))

theorem placed_engineLine_iff {engine : Engine} :
    Placed s n symbol (engineLine engine) ↔
      n.kind = .database ∧ Engine.ofNode? n = some engine := by
  refine ⟨fun h => ?_, fun h => .engine h.1 h.2⟩
  have hb := engineLine_begins engine
  generalize e : engineLine engine = t at h hb
  cases h with
  | group hc within => exact absurd hb (groupLine_foreign hi (by simp [placeWords]) _)
  | network hc within => exact absurd hb (Begins.unique (by decide) (placeLine_begins _ _))
  | subnets hc hp => exact absurd hb (Begins.unique (by decide) publicSubnets_begins)
  | engine hk he => exact ⟨hk, engineLine_inj e ▸ he⟩

theorem placed_groupLine_iff {v : String} :
    Placed s n symbol (groupLine symbol v) ↔
      n.isCompute = true ∧ ∃ net, s.network? n = some net ∧ v = net.var := by
  refine ⟨fun h => ⟨h.isCompute, ?_⟩, fun ⟨hc, net, within, e⟩ => e ▸ .group hc within⟩
  generalize e : groupLine symbol v = t at h
  cases h with
  | group hc within => exact ⟨_, within, groupLine_inj e⟩
  | network hc within =>
    exact absurd (e ▸ placeLine_begins _ _) (groupLine_foreign hi (by simp [placeWords]) v)
  | subnets hc hp =>
    exact absurd (e ▸ publicSubnets_begins) (groupLine_foreign hi (by simp [placeWords]) v)
  | engine hk he =>
    exact absurd (e ▸ engineLine_begins _) (groupLine_foreign hi (by simp [placeWords]) v)

/-- **Only what places a node begins like that**: such a line is in a declaration exactly if it is
    one of those that place the node. -/
theorem Declares.mem_texts_iff_placed (h : Declares s n symbol steps) {o : Origin} {w t : String}
    (hw : w ∈ placeWords) (hb : Begins w t) :
    t ∈ (Fragment.build o steps).texts ↔ Placed s n symbol t := by
  refine ⟨fun ht => (h.mem_texts ht).resolve_right fun hp => ?_, h.mem_texts_of_placed⟩
  exact hp.not_begins_word hi hw hb

theorem Declares.mem_groupLine_iff_placed (h : Declares s n symbol steps) {o : Origin}
    {v : String} :
    groupLine symbol v ∈ (Fragment.build o steps).texts ↔
      Placed s n symbol (groupLine symbol v) := by
  refine ⟨fun ht => (h.mem_texts ht).resolve_right fun hp => ?_, h.mem_texts_of_placed⟩
  have hb := groupLine_begins symbol v
  rw [hi] at hb
  exact hp.not_begins hi List.mem_cons_self hb

theorem Plain.not_rule {t q : String} {j : Nat} (h : Plain symbol t) (hq : q ∈ ruleTails) :
    ¬ Begins (variableName j ++ q) t :=
  h.not_begins hi (List.mem_cons_of_mem _ hq)

theorem Placed.not_rule {t q : String} {j : Nat} (h : Placed s n symbol t) (hq : q ∈ ruleTails) :
    ¬ Begins (variableName j ++ q) t := by
  intro hb
  have word : ∀ {w}, w ∈ placeWords → ¬ Begins w t := fun hw hwt =>
    not_begins_variable (wordsApart.placeForeign _ hw) hwt j ((Begins.append _ _).trans hb)
  cases h with
  | @group net hc within =>
    have hg := groupLine_begins symbol net.var
    rw [hi] at hg
    exact not_begins_of_apart (wordsApart.callOpen _ List.mem_cons_self)
      (wordsApart.callOpen q (List.mem_cons_of_mem _ hq)) (wordsApart.groupRule q hq) hg hb
  | network hc within => exact word (by simp [placeWords]) (placeLine_begins _ _)
  | subnets hc hp => exact word (by simp [placeWords]) publicSubnets_begins
  | engine hk he => exact word (by simp [placeWords]) (engineLine_begins _)

/-- **No line of a declaration is a rule.** -/
theorem Declares.not_rule (h : Declares s n symbol steps) {o : Origin} {t q : String} {j : Nat}
    (ht : t ∈ (Fragment.build o steps).texts) (hq : q ∈ ruleTails) :
    ¬ Begins (variableName j ++ q) t := by
  rcases h.mem_texts ht with hp | hp
  · exact hp.not_rule hi hq
  · exact hp.not_rule hi hq

end Exact

end DeclaredLines

end InfraDiagram.Resource
