import InfraDiagram.Proofs.HonestSteps
import InfraDiagram.Proofs.Layout

/-!
# What the lines of a program quote

The lines with literals are listed with their layouts: those of the parts that declarations are made
of, those of the declaration of each kind of node (`Resource.Quotes`), and those of rules.
`Fragment.Lays` says that these are all, every other line being code. The layouts are sound whatever
a diagram says, except for that of the managed policy, which is written as it is
(`Resource.Quotes.sound`).
-/

namespace InfraDiagram

open Literal Reading

/-! ## 1. The judgement -/

namespace Fragment

/-- **The lines of some steps that have literals**, in their order; all other lines are code. -/
inductive Lays : List Step → List Layout → Prop where
  | nil : Lays [] []
  | line {text : String} {l : Layout} {steps : List Step} {ls : List Layout}
      (laid : text = l.written) (rest : Lays steps ls) : Lays (.line text :: steps) (l :: ls)
  | output {o : Output} {l : Layout} {steps : List Step} {ls : List Layout}
      (laid : outputLine o = l.written) (rest : Lays steps ls) : Lays (.output o :: steps) (l :: ls)
  | code {text : String} {steps : List Step} {ls : List Layout} (code : isCode text = true)
      (rest : Lays steps ls) : Lays (.line text :: steps) ls
  | silent {step : Step} {steps : List Step} {ls : List Layout} (quiet : step.text? = none)
      (rest : Lays steps ls) : Lays (step :: steps) ls

theorem Lays.append {xs ys : List Step} {ls ms : List Layout} (h : Lays xs ls) (h' : Lays ys ms) :
    Lays (xs ++ ys) (ls ++ ms) := by
  induction h with
  | nil => exact h'
  | line laid _ ih => exact .line laid ih
  | output laid _ ih => exact .output laid ih
  | code code _ ih => exact .code code ih
  | silent quiet _ ih => exact .silent quiet ih

theorem Lays.append_code {xs ys : List Step} {ls : List Layout} (h : Lays xs ls) (h' : Lays ys []) :
    Lays (xs ++ ys) ls := List.append_nil ls ▸ h.append h'

end Fragment

/-! ## 2. Code, quotes and plain text -/

namespace Literal

theorem isCode_fixed {cs : List Char} (h : cs.all isCodeChar = true) :
    isCode (String.ofList cs) = true := by
  rw [isCode, String.toList_ofList]
  exact h

theorem isCode_append {s t : String} (hs : isCode s = true) (ht : isCode t = true) :
    isCode (s ++ t) = true := by
  unfold isCode at hs ht ⊢
  rw [String.toList_append, List.all_append, hs, ht]
  rfl

/-- Code with fixed text on both sides. -/
theorem isCode_around {v : String} {cs ds : List Char} (hv : isCode v = true)
    (h : (cs ++ ds).all isCodeChar = true) :
    isCode (String.ofList cs ++ v ++ String.ofList ds) = true := by
  rw [List.all_append, Bool.and_eq_true] at h
  exact isCode_append (isCode_append (isCode_fixed h.1) hv) (isCode_fixed h.2)

theorem isCode_of_word {s : String} (h : ∀ c ∈ s.toList, isWordChar c = true) :
    isCode s = true := by
  refine List.all_eq_true.mpr fun c hc => ?_
  have differs : ∀ d, isWordChar d = false → c ≠ d := by
    rintro d hd rfl
    rw [h c hc] at hd
    cases hd
  simp [isCodeChar, isQuote, isLost, isBreak, differs '\'' rfl, differs '"' rfl, differs '\n' rfl,
    differs '\r' rfl, differs '\\' rfl, differs '#' rfl]

theorem isCode_of_isVariable {v : String} (h : isVariable v.toList = true) : isCode v = true :=
  isCode_of_word (isVariable_cases h).2

theorem isCode_toString (n : Nat) : isCode (toString n) = true := by
  refine isCode_of_word fun c hc => ?_
  rw [Nat.toString_eq_repr, Nat.toList_repr] at hc
  simp [isWordChar, Char.isAlphanum, isDigit_of_mem_toDigits c hc]

theorem isPlainText_fixed {q : Char} {cs : List Char} (h : cs.all (isPlain q) = true) :
    isPlainText q (String.ofList cs) = true := by
  rw [isPlainText, String.toList_ofList]
  exact h

theorem isPlainText_append {q : Char} {s t : String} (hs : isPlainText q s = true)
    (ht : isPlainText q t = true) : isPlainText q (s ++ t) = true := by
  unfold isPlainText at hs ht ⊢
  rw [String.toList_append, List.all_append, hs, ht]
  rfl

theorem isPlainText_of_isCode {q : Char} {s : String} (hq : isQuote q = true)
    (h : isCode s = true) : isPlainText q s = true :=
  List.all_eq_true.mpr fun c hc => Scanner.isPlain_of_isCodeChar hq (List.all_eq_true.mp h c hc)

/-- Whether a fixed text is code that ends with a quote. -/
def opens (q : Char) (cs : List Char) : Bool :=
  isQuote q && cs.getLast? == some q && cs.dropLast.all isCodeChar

theorem eq_of_opens {q : Char} {cs : List Char} (h : opens q cs = true) :
    isQuote q = true ∧ cs = cs.dropLast ++ [q] ∧ cs.dropLast.all isCodeChar = true := by
  simp only [opens, Bool.and_eq_true, beq_iff_eq] at h
  exact ⟨h.1.1, (List.dropLast_append_getLast? q h.1.2).symm, h.2⟩

theorem Opens.fixed {q : Char} {cs : List Char} (h : opens q cs = true) :
    Opens q (String.ofList cs) := by
  obtain ⟨hq, split, code⟩ := eq_of_opens h
  exact ⟨hq, cs.dropLast, by rw [String.toList_ofList]; exact split, code⟩

theorem Opens.after {q : Char} {v s : String} (hv : isCode v = true) (h : Opens q s) :
    Opens q (v ++ s) := by
  obtain ⟨hq, cs, e, code⟩ := h
  refine ⟨hq, v.toList ++ cs, by rw [String.toList_append, e, List.append_assoc], ?_⟩
  rw [isCode] at hv
  rw [List.all_append, hv, code]
  rfl

theorem Closes.fixed {q : Char} {cs : List Char} (h : cs.all isCodeChar = true) :
    Closes q (String.ofList (q :: cs)) := ⟨cs, String.toList_ofList, h⟩

theorem Closes.before {q : Char} {s t : String} (h : Closes q s) (ht : isCode t = true) :
    Closes q (s ++ t) := by
  obtain ⟨cs, e, code⟩ := h
  refine ⟨cs ++ t.toList, by rw [String.toList_append, e, List.cons_append], ?_⟩
  rw [isCode] at ht
  rw [List.all_append, code, ht]
  rfl

theorem Turns.fixed {p q c : Char} {cs : List Char} (h : opens q (c :: cs) = true)
    (hc : isQuote c = false) : Turns p q (String.ofList (p :: c :: cs)) := by
  obtain ⟨hq, split, code⟩ := eq_of_opens h
  generalize (c :: cs).dropLast = ds at split code
  cases ds with
  | nil =>
    cases split
    rw [hq] at hc
    cases hc
  | cons d ds =>
    cases split
    exact ⟨hq, _, ds, String.toList_ofList, code⟩

theorem Layout.written_nil (tail : String) : written ⟨[], tail⟩ = tail := String.ofList_toList

theorem Layout.written_asIs (lead text : String) (slots : List Slot) (tail : String) :
    written ⟨.asIs lead text :: slots, tail⟩ = lead ++ (text ++ written ⟨slots, tail⟩) := by
  simp [written, chars, Slot.inner, Slot.asIs]

theorem Layout.written_escaped (lead text : String) (slots : List Slot) (tail : String) :
    written ⟨.escaped lead text :: slots, tail⟩ =
      lead ++ (escape text ++ written ⟨slots, tail⟩) := by
  simp [written, chars, Slot.inner, Slot.escaped]

theorem Layout.Sound.one {q : Char} {s : Slot} {tail : String} (opens : Opens q s.lead)
    (fits : s.Fits q) (closes : Closes q tail) : Layout.Sound ⟨[s], tail⟩ :=
  .mk opens fits (.last closes)

theorem Layout.Sound.two {q q' : Char} {s t : Slot} {tail : String} (opens : Opens q s.lead)
    (fits : s.Fits q) (turns : Turns q q' t.lead) (fits' : t.Fits q') (closes : Closes q' tail) :
    Layout.Sound ⟨[s, t], tail⟩ :=
  .mk opens fits (.next turns fits' (.last closes))

theorem Slot.fits_escaped (q : Char) (lead text : String) : (Slot.escaped lead text).Fits q :=
  fun raw => by cases raw

theorem Slot.fits_asIs {q : Char} {text : String} (lead : String) (h : isPlainText q text = true) :
    (Slot.asIs lead text).Fits q := fun _ => h

end Literal

namespace Symbol.Legible

variable {s : Symbol} (hs : s.Legible)
include hs

theorem isCode : isCode s.var = true := isCode_of_isVariable hs.isVariable

theorem isCode_satellite (k : Satellite) : Literal.isCode (s.satellite k).var = true :=
  isCode_of_isVariable (hs.satellite k)

theorem plain : isPlainText '\'' s.resource = true :=
  List.all_eq_true.mpr fun c hc => isPlain_of_isResourceChar (hs.resource c hc)

theorem plain_satellite (k : Satellite) : isPlainText '\'' (s.satellite k).resource = true := by
  refine isPlainText_append hs.plain ?_
  cases k <;> exact isPlainText_fixed (by decide)

end Symbol.Legible

/-! ## 3. Networks, groups, roles and outputs -/

namespace Resource

open Fragment (Lays)

variable {symbol net : Symbol} {settings : Settings}

/-- The line of a network. -/
def networkLayout (symbol : Symbol) (settings : Settings) : Layout :=
  ⟨[.asIs (symbol.var ++ " = ec2.Vpc(self, '") symbol.resource],
    "', nat_gateways=" ++ toString settings.natGateways.toNat ++ ")"⟩

/-- The line of a security group. -/
def groupLayout (owner net : Symbol) : Layout :=
  ⟨[.asIs ((owner.satellite .securityGroup).var ++ " = ec2.SecurityGroup(self, '")
      (owner.satellite .securityGroup).resource], "', vpc=" ++ net.var ++ ")"⟩

/-- The line of a role. -/
def roleLayout (owner : Symbol) : Layout :=
  ⟨[.asIs ((owner.satellite .role).var ++ "=iam.Role(self, '") (owner.satellite .role).resource,
      .asIs "', assumed_by=iam.ServicePrincipal('" "ec2.amazonaws.com"], "'))"⟩

/-- The code before the managed policy. -/
def policyLead (owner : Symbol) : String :=
  (owner.satellite .role).var
    ++ ".add_managed_policy(iam.ManagedPolicy.from_aws_managed_policy_name('"

/-- The line of the managed policy. -/
def policyLayout (owner : Symbol) (settings : Settings) : Layout :=
  ⟨[.asIs (policyLead owner) settings.managedPolicy], "'))"⟩

/-- The line of an output. -/
def outputLayout (o : Output) : Layout :=
  ⟨[.asIs "cdk.CfnOutput(self, '" o.outputId], "', value=" ++ o.value ++ ")"⟩

/-- The first line of a resource that is declared on several lines. -/
def headLayout (call : String) (symbol : Symbol) : Layout :=
  ⟨[.asIs (symbol.var ++ call) symbol.resource], "',"⟩

/-- A line with one text. -/
def textLayout (lead text tail : String) : Layout := ⟨[.escaped lead text], tail⟩

theorem network_lays (symbol : Symbol) (settings : Settings) :
    Lays (network symbol settings) [networkLayout symbol settings] := by
  refine .silent rfl <| .line ?_ <| .silent rfl .nil
  simp only [networkLayout, Layout.written_asIs, Layout.written_nil, String.append_assoc]

theorem securityGroup_lays (symbol net : Symbol) :
    Lays (securityGroup symbol net) [groupLayout symbol net] := by
  refine .silent rfl <| .silent rfl <| .line ?_ <| .silent rfl .nil
  simp only [groupLayout, Layout.written_asIs, Layout.written_nil, String.append_assoc]

theorem serverRole_lays (symbol : Symbol) (settings : Settings) :
    Lays (serverRole symbol settings) [roleLayout symbol, policyLayout symbol settings] := by
  have trusted : "', assumed_by=iam.ServicePrincipal('ec2.amazonaws.com'))" =
    "', assumed_by=iam.ServicePrincipal('" ++ ("ec2.amazonaws.com" ++ "'))") := rfl
  refine .silent rfl <| .line ?_ <| .line ?_ <| .silent rfl .nil
  · simp only [roleLayout, trusted, Layout.written_asIs, Layout.written_nil, String.append_assoc]
  · simp only [policyLayout, policyLead, Layout.written_asIs, Layout.written_nil,
      String.append_assoc]

theorem output_lays (o : Output) : Lays [.output o] [outputLayout o] := by
  refine .output ?_ .nil
  unfold Fragment.outputLine outputLayout
  rw [Layout.written_asIs, Layout.written_nil]
  simp only [String.append_assoc]

theorem head_written (call : String) (symbol : Symbol) :
    symbol.var ++ call ++ symbol.resource ++ "'," = (headLayout call symbol).written := by
  simp only [headLayout, Layout.written_asIs, Layout.written_nil, String.append_assoc]

theorem text_written (lead text tail : String) :
    lead ++ escape text ++ tail = (textLayout lead text tail).written := by
  simp only [textLayout, Layout.written_escaped, Layout.written_nil, String.append_assoc]

theorem placement_lays (isPublic : Bool) :
    Lays (if isPublic then [.line publicSubnets] else []) [] := by
  have code : isCode publicSubnets = true := isCode_fixed (by decide)
  cases isPublic with
  | false => exact .nil
  | true => exact .code code .nil

/-! ## 4. Servers -/

namespace Server

/-- The line of a machine image that is given for a zone. -/
def imageLayout (zone ami : String) : Layout :=
  ⟨[.escaped ("machine_image=" ++ "ec2.MachineImage.generic_linux(\x7b\"") zone,
      .escaped "\": \"" ami], "\"\x7d)" ++ ","⟩

/-- The line of an application's asset. -/
def assetLayout (symbol : Symbol) (path : String) : Layout :=
  ⟨[.asIs ((symbol.satellite .asset).var ++ "=s3assets.Asset(self, '")
      (symbol.satellite .asset).resource, .escaped "', path='" path], "')"⟩

/-- The line of a command that copies the application. -/
def copyLayout (symbol : Symbol) : Layout :=
  ⟨[.asIs (symbol.var ++ ".user_data.add_commands(f'")
      ("cp \x7b" ++ (symbol.var ++ "_filepath") ++ "\x7d app.zip")], "')"⟩

/-- The line of a command that unpacks the application. -/
def unzipLayout (symbol : Symbol) : Layout :=
  ⟨[.asIs (symbol.var ++ ".user_data.add_commands('") "unzip app.zip"], "')"⟩

/-- The line of a script. -/
def scriptLayout (symbol : Symbol) (text : String) : Layout :=
  textLayout (symbol.var ++ ".add_user_data('") text "')"

/-- The lines of the server itself. -/
def ownLayouts (s : Server) (symbol : Symbol) : List Layout :=
  [headLayout " = ec2.Instance(self, '" symbol,
    textLayout "instance_type=ec2.InstanceType('" s.instanceType "'),"]
  ++ s.ami.elim [] fun ami => [imageLayout s.zone ami]

/-- The lines of its application. -/
def applicationLayouts (symbol : Symbol) (path : String) : List Layout :=
  [assetLayout symbol path, copyLayout symbol, unzipLayout symbol]

/-- **What the declaration of a server quotes.** -/
def layouts (s : Server) (settings : Settings) (nodeId : String) (symbol net : Symbol) :
    List Layout :=
  [groupLayout symbol net] ++ [roleLayout symbol, policyLayout symbol settings]
    ++ s.ownLayouts symbol ++ s.appPath.elim [] (applicationLayouts symbol)
    ++ s.userData.elim [] (fun text => [scriptLayout symbol text])
    ++ [outputLayout (address nodeId symbol)]

theorem image_written (zone ami : String) :
    "machine_image=" ++ ("ec2.MachineImage.generic_linux(\x7b\"" ++ escape zone ++ "\": \""
      ++ escape ami ++ "\"\x7d)") ++ "," = (imageLayout zone ami).written := by
  simp only [imageLayout, Layout.written_escaped, Layout.written_nil, String.append_assoc]

theorem asset_written (symbol : Symbol) (path : String) :
    (symbol.satellite .asset).var ++ "=s3assets.Asset(self, '" ++ (symbol.satellite .asset).resource
      ++ "', path='" ++ escape path ++ "')" = (assetLayout symbol path).written := by
  simp only [assetLayout, Layout.written_asIs, Layout.written_escaped, Layout.written_nil,
    String.append_assoc]

theorem machineImage_lays (s : Server) :
    Lays [.line ("machine_image=" ++ s.machineImage ++ ",")]
      (s.ami.elim [] fun ami => [imageLayout s.zone ami]) := by
  unfold machineImage
  cases s.ami with
  | none => exact .code (isCode_append (isCode_append (isCode_fixed (by decide))
      (isCode_fixed (by decide))) (isCode_fixed (by decide))) .nil
  | some ami => exact .line (image_written s.zone ami) .nil

theorem declaration_lays (s : Server) (isPublic : Bool) (hs : symbol.Legible) (hn : net.Legible) :
    Lays (s.declaration symbol net isPublic) (s.ownLayouts symbol) := by
  unfold declaration
  refine (Fragment.Lays.append_code ?_ (placement_lays isPublic)).append_code ?_
  · exact .line (head_written _ symbol) <| .silent rfl <| .line (text_written _ _ _)
      s.machineImage_lays
  · exact .code (isCode_around hn.isCode (by decide)) <|
      .code (isCode_around (hs.isCode_satellite _) (by decide)) <|
      .code (isCode_append (isCode_fixed (by decide)) (hs.isCode_satellite _)) <| .silent rfl <|
      .code (isCode_fixed (by decide)) <| .silent rfl .nil

theorem application_lays (path : String) (hs : symbol.Legible) :
    Lays (application symbol path) (applicationLayouts symbol path) := by
  have file : isCode (symbol.var ++ "_filepath") = true :=
    isCode_append hs.isCode (isCode_fixed (by decide))
  have asset := hs.isCode_satellite .asset
  have grant : isCode ((symbol.satellite .asset).var ++ ".grant_read(" ++
      (symbol.satellite .role).var ++ ")") = true :=
    isCode_append (isCode_append (isCode_append asset (isCode_fixed (by decide)))
      (hs.isCode_satellite .role)) (isCode_fixed (by decide))
  have download : isCode (symbol.var ++ "_filepath" ++ "=" ++ symbol.var ++
      ".user_data.add_s3_download_command(bucket=" ++ (symbol.satellite .asset).var ++
      ".bucket, bucket_key=" ++ (symbol.satellite .asset).var ++ ".s3_object_key)") = true :=
    isCode_append (isCode_append (isCode_append (isCode_append (isCode_append (isCode_append
      (isCode_append file (isCode_fixed (by decide))) hs.isCode) (isCode_fixed (by decide)))
      asset) (isCode_fixed (by decide))) asset) (isCode_fixed (by decide))
  refine .silent rfl <| .line (asset_written symbol path) <| .code grant <| .code download <|
    .line ?_ <| .line ?_ <| .silent rfl <| .silent rfl .nil
  · have split : ".user_data.add_commands(f'cp \x7b" =
      ".user_data.add_commands(f'" ++ "cp \x7b" := rfl
    have split' : "\x7d app.zip')" = "\x7d app.zip" ++ "')" := rfl
    simp only [copyLayout, split, split', Layout.written_asIs, Layout.written_nil,
      String.append_assoc]
  · have split : ".user_data.add_commands('unzip app.zip')" =
      ".user_data.add_commands('" ++ ("unzip app.zip" ++ "')") := rfl
    simp only [unzipLayout, split, Layout.written_asIs, Layout.written_nil, String.append_assoc]

theorem steps_lays (s : Server) (nodeId : String) (isPublic : Bool) (hs : symbol.Legible)
    (hn : net.Legible) :
    Lays (s.steps settings nodeId symbol net isPublic) (s.layouts settings nodeId symbol net) := by
  have applied : Lays (s.appPath.elim [] (application symbol))
      (s.appPath.elim [] (applicationLayouts symbol)) := by
    cases s.appPath with
    | none => exact .nil
    | some path => exact application_lays path hs
  have scripted : Lays (s.userData.elim [] (script symbol))
      (s.userData.elim [] fun text => [scriptLayout symbol text]) := by
    cases s.userData with
    | none => exact .nil
    | some text => exact .line (text_written _ text _) .nil
  rw [steps_eq]
  exact (((((securityGroup_lays symbol net).append (serverRole_lays symbol settings)).append
    (s.declaration_lays isPublic hs hn)).append applied).append scripted).append (output_lays _)

end Server

/-! ## 5. Databases and buckets -/

namespace Database

/-- The line of the credentials. -/
def credentialsLayout (engine : Engine) : Layout :=
  ⟨[.asIs "credentials=rds.Credentials.from_generated_secret('" (engine.text ++ "_user")], "'),"⟩

/-- The lines of the database itself. -/
def ownLayouts (d : Database) (name : String) (symbol : Symbol) : List Layout :=
  [headLayout " = rds.DatabaseInstance(self, '" symbol,
    textLayout "instance_type=ec2.InstanceType('" d.instanceType "'), "]
  ++ [credentialsLayout d.engine, textLayout "database_name='" name "',"]

/-- **What the declaration of a database quotes.** -/
def layouts (d : Database) (name : String) (symbol net : Symbol) : List Layout :=
  [groupLayout symbol net] ++ d.ownLayouts name symbol

theorem declaration_lays (d : Database) (name : String) (isPublic : Bool) (hs : symbol.Legible)
    (hn : net.Legible) :
    Lays (d.declaration name symbol net isPublic) (d.ownLayouts name symbol) := by
  have engine : isCode d.engine.constant = true := by
    cases d.engine <;> exact isCode_fixed (by decide)
  have credentials : "credentials=rds.Credentials.from_generated_secret('" ++ d.engine.text ++
      "_user')," = (credentialsLayout d.engine).written := by
    have split : "_user')," = "_user" ++ "')," := rfl
    simp only [credentialsLayout, split, Layout.written_asIs, Layout.written_nil,
      String.append_assoc]
  unfold declaration
  refine (Fragment.Lays.append_code ?_ (placement_lays isPublic)).append ?_
  · exact .silent rfl <| .line (head_written _ symbol) <| .silent rfl <|
      .line (text_written _ _ _) <|
      .code (isCode_around engine (by decide)) <|
      .code (isCode_around hn.isCode (by decide)) <|
      .code (isCode_around (hs.isCode_satellite _) (by decide)) .nil
  · exact .line credentials <| .line (text_written _ name _) <|
      .code (isCode_around (isCode_toString _) (by decide)) <|
      .code (isCode_fixed (by decide)) <| .silent rfl <| .code (isCode_fixed (by decide)) <|
      .silent rfl .nil

theorem steps_lays (d : Database) (stackName : String) (isPublic : Bool) (hs : symbol.Legible)
    (hn : net.Legible) :
    Lays (d.steps settings stackName symbol net isPublic)
      (d.layouts (databaseName settings stackName symbol) symbol net) :=
  (securityGroup_lays symbol net).append (d.declaration_lays _ isPublic hs hn)

end Database

namespace Bucket

/-- The line of a deployment. -/
def deploymentLayout (symbol : Symbol) : Layout :=
  ⟨[.asIs "s3_deployment.BucketDeployment(self, '" (symbol.satellite .deployment).resource], "',"⟩

/-- The lines of a website's pages. -/
def pageLayouts (b : Bucket) (index : String) : List Layout :=
  [textLayout "website_index_document='" index "',",
    textLayout "website_error_document='" b.errorPage "',"]

/-- The lines of a deployment. -/
def deploymentLayouts (symbol : Symbol) (path : String) : List Layout :=
  [deploymentLayout symbol, textLayout "sources=[s3_deployment.Source.asset('" path "')],"]

/-- **What the declaration of a bucket quotes.** -/
def layouts (b : Bucket) (nodeId : String) (symbol : Symbol) : List Layout :=
  [headLayout " = s3.Bucket(self, '" symbol] ++ b.index.elim [] b.pageLayouts
    ++ b.appPath.elim [] (deploymentLayouts symbol)
    ++ if b.index.isSome then [outputLayout (address nodeId symbol)] else []

theorem visibility_lays (b : Bucket) : Lays b.visibility (b.index.elim [] b.pageLayouts) := by
  unfold visibility
  cases b.index with
  | none => exact .code (isCode_fixed (by decide)) .nil
  | some index =>
    exact .code (isCode_fixed (by decide)) <| .code (isCode_fixed (by decide)) <|
      .line (text_written _ index _) <| .line (text_written _ b.errorPage _) .nil

theorem declaration_lays (b : Bucket) (symbol : Symbol) :
    Lays (b.declaration symbol)
      ([headLayout " = s3.Bucket(self, '" symbol] ++ b.index.elim [] b.pageLayouts) := by
  unfold declaration
  refine (Fragment.Lays.append ?_ b.visibility_lays).append_code ?_
  · exact .silent rfl <| .line (head_written _ symbol) <| .silent rfl <|
      .code (isCode_fixed (by decide)) .nil
  · exact .code (isCode_fixed (by decide)) <| .silent rfl <|
      .code (isCode_fixed (by decide)) <| .silent rfl .nil

theorem deployment_lays (path : String) (hs : symbol.Legible) :
    Lays (deployment symbol path) (deploymentLayouts symbol path) := by
  refine .silent rfl <| .line ?_ <| .silent rfl <| .line (text_written _ path _) <|
    .code (isCode_append (isCode_fixed (by decide)) hs.isCode) <| .silent rfl <|
    .code (isCode_fixed (by decide)) .nil
  simp only [deploymentLayout, Layout.written_asIs, Layout.written_nil, String.append_assoc]

theorem steps_lays (b : Bucket) (nodeId : String) (hs : symbol.Legible) :
    Lays (b.steps nodeId symbol) (b.layouts nodeId symbol) := by
  have deployed : Lays (b.appPath.elim [] (deployment symbol))
      (b.appPath.elim [] (deploymentLayouts symbol)) := by
    cases b.appPath with
    | none => exact .nil
    | some path => exact deployment_lays path hs
  have addressed : Lays (if b.index.isSome then [.output (address nodeId symbol)] else [])
      (if b.index.isSome then [outputLayout (address nodeId symbol)] else []) := by
    split
    · exact output_lays _
    · exact .nil
  rw [steps_eq]
  exact ((b.declaration_lays symbol).append deployed).append addressed

end Bucket

/-! ## 6. Nodes -/

/-- **What the declaration of a node quotes**, one case for each kind. -/
inductive Quotes (s : Scope) (n : Node) (symbol : Symbol) : List Layout → Prop where
  | vpc (kind : n.kind = .vpc) : Quotes s n symbol [networkLayout symbol s.settings]
  | server (kind : n.kind = .server) {server : Server}
      (read : Server.ofNode s.settings n = .ok server) {net : Symbol}
      (within : s.network? n = some net) :
      Quotes s n symbol (server.layouts s.settings n.id symbol net)
  | database (kind : n.kind = .database) {database : Database}
      (read : Database.ofNode s.settings n = .ok database) {net : Symbol}
      (within : s.network? n = some net) :
      Quotes s n symbol
        (database.layouts (Database.databaseName s.settings s.stackName symbol) symbol net)
  | bucket (kind : n.kind = .bucket) {bucket : Bucket} (read : Bucket.ofNode n = .ok bucket) :
      Quotes s n symbol (bucket.layouts n.id symbol)

/-- **The lines that declare a node quote what they should**, and no other line has a literal. -/
theorem Declares.lays {s : Scope} {n : Node} {steps : List Fragment.Step}
    (h : Declares s n symbol steps) (hs : symbol.Legible)
    (hn : ∀ net, s.network? n = some net → net.Legible) :
    ∃ ls, Quotes s n symbol ls ∧ Lays steps ls := by
  cases h with
  | vpc kind => exact ⟨_, .vpc kind, network_lays symbol s.settings⟩
  | server kind read within =>
    exact ⟨_, .server kind read within, Server.steps_lays _ _ _ hs (hn _ within)⟩
  | database kind read within =>
    exact ⟨_, .database kind read within, Database.steps_lays _ _ _ hs (hn _ within)⟩
  | bucket kind read => exact ⟨_, .bucket kind read, Bucket.steps_lays _ _ hs⟩

/-! ## 7. The layouts are sound -/

section Sound

theorem textLayout_sound {lead : String} (text : String) {tail : String} {q : Char}
    (opens : Opens q lead) (closes : Closes q tail) : (textLayout lead text tail).Sound :=
  .one opens (Slot.fits_escaped _ _ _) closes

theorem outputLayout_sound {o : Output} (plain : isPlainText '\'' o.outputId = true)
    (value : isCode o.value = true) : (outputLayout o).Sound :=
  .one (.fixed (by decide)) (Slot.fits_asIs _ plain)
    (((Closes.fixed (by decide)).before value).before (isCode_fixed (by decide)))

variable (hs : symbol.Legible)
include hs

theorem networkLayout_sound : (networkLayout symbol settings).Sound :=
  .one (.after hs.isCode (.fixed (by decide))) (Slot.fits_asIs _ hs.plain)
    (((Closes.fixed (by decide)).before (isCode_toString _)).before (isCode_fixed (by decide)))

theorem groupLayout_sound (hn : net.Legible) : (groupLayout symbol net).Sound :=
  .one (.after (hs.isCode_satellite _) (.fixed (by decide)))
    (Slot.fits_asIs _ (hs.plain_satellite _))
    (((Closes.fixed (by decide)).before hn.isCode).before (isCode_fixed (by decide)))

theorem roleLayout_sound : (roleLayout symbol).Sound :=
  .two (.after (hs.isCode_satellite _) (.fixed (by decide)))
    (Slot.fits_asIs _ (hs.plain_satellite _)) (.fixed (q := '\'') (by decide) rfl)
    (Slot.fits_asIs _ (isPlainText_fixed (by decide))) (.fixed (by decide))

theorem opens_policyLead : Opens '\'' (policyLead symbol) :=
  .after (hs.isCode_satellite _) (.fixed (by decide))

theorem policyLayout_sound (plain : isPlainText '\'' settings.managedPolicy = true) :
    (policyLayout symbol settings).Sound :=
  .one (opens_policyLead hs) (Slot.fits_asIs _ plain) (.fixed (by decide))

theorem headLayout_sound {call : String} (hc : Opens '\'' call) : (headLayout call symbol).Sound :=
  .one (.after hs.isCode hc) (Slot.fits_asIs _ hs.plain) (.fixed (by decide))

namespace Server

omit hs in
theorem imageLayout_sound (zone ami : String) : (imageLayout zone ami).Sound :=
  .two (q := '"') (.after (isCode_fixed (by decide)) (.fixed (by decide)))
    (Slot.fits_escaped _ _ _) (.fixed (q := '"') (by decide) rfl) (Slot.fits_escaped _ _ _)
    ((Closes.fixed (by decide)).before (isCode_fixed (by decide)))

theorem assetLayout_sound (path : String) : (assetLayout symbol path).Sound :=
  .two (.after (hs.isCode_satellite _) (.fixed (by decide)))
    (Slot.fits_asIs _ (hs.plain_satellite _)) (.fixed (q := '\'') (by decide) rfl)
    (Slot.fits_escaped _ _ _) (.fixed (by decide))

theorem scriptLayout_sound (text : String) : (scriptLayout symbol text).Sound :=
  textLayout_sound text (.after hs.isCode (.fixed (by decide))) (.fixed (by decide))

theorem applicationLayouts_sound (path : String) :
    ∀ l ∈ applicationLayouts symbol path, l.Sound := by
  have file : isPlainText '\'' (symbol.var ++ "_filepath") = true :=
    isPlainText_append (isPlainText_of_isCode rfl hs.isCode) (isPlainText_fixed (by decide))
  have copy : (copyLayout symbol).Sound :=
    .one (.after hs.isCode (.fixed (by decide))) (Slot.fits_asIs _ (isPlainText_append
      (isPlainText_append (isPlainText_fixed (by decide)) file) (isPlainText_fixed (by decide))))
      (.fixed (by decide))
  have unzip : (unzipLayout symbol).Sound :=
    .one (.after hs.isCode (.fixed (by decide)))
      (Slot.fits_asIs _ (isPlainText_fixed (by decide))) (.fixed (by decide))
  simp only [applicationLayouts, List.forall_mem_cons]
  exact ⟨assetLayout_sound hs path, copy, unzip, List.forall_mem_nil _⟩

theorem ownLayouts_sound (s : Server) : ∀ l ∈ s.ownLayouts symbol, l.Sound := by
  unfold ownLayouts
  refine List.forall_mem_append.mpr ⟨?_, ?_⟩
  · simp only [List.forall_mem_cons]
    exact ⟨headLayout_sound hs (.fixed (by decide)),
      textLayout_sound _ (.fixed (q := '\'') (by decide)) (.fixed (by decide)),
      List.forall_mem_nil _⟩
  · cases s.ami with
    | none => exact List.forall_mem_nil _
    | some ami => exact List.forall_mem_singleton.mpr (imageLayout_sound s.zone ami)

theorem address_sound (nodeId : String) : (outputLayout (address nodeId symbol)).Sound :=
  outputLayout_sound (isPlainText_append hs.plain (isPlainText_fixed (by decide)))
    (isCode_append hs.isCode (isCode_fixed (by decide)))

/-- All lines of a server are sound, but for that of the managed policy. -/
theorem layouts_sound (s : Server) (nodeId : String) (hn : net.Legible) :
    ∀ l ∈ s.layouts settings nodeId symbol net, l.Sound ∨ l = policyLayout symbol settings := by
  have applied : ∀ l ∈ s.appPath.elim [] (applicationLayouts symbol), l.Sound := by
    cases s.appPath with
    | none => exact List.forall_mem_nil _
    | some path => exact applicationLayouts_sound hs path
  have scripted : ∀ l ∈ s.userData.elim [] (fun text => [scriptLayout symbol text]), l.Sound := by
    cases s.userData with
    | none => exact List.forall_mem_nil _
    | some text => exact List.forall_mem_singleton.mpr (scriptLayout_sound hs text)
  intro l hl
  simp only [layouts, List.mem_append, List.mem_cons, List.not_mem_nil, or_false] at hl
  rcases hl with ((((rfl | rfl | rfl) | hl) | hl) | hl) | rfl
  · exact Or.inl (groupLayout_sound hs hn)
  · exact Or.inl (roleLayout_sound hs)
  · exact Or.inr rfl
  · exact Or.inl (ownLayouts_sound hs s l hl)
  · exact Or.inl (applied l hl)
  · exact Or.inl (scripted l hl)
  · exact Or.inl (address_sound hs nodeId)

end Server

theorem Database.layouts_sound (d : Database) (name : String) (hn : net.Legible) :
    ∀ l ∈ d.layouts name symbol net, l.Sound := by
  have user : isPlainText '\'' (d.engine.text ++ "_user") = true := by
    refine isPlainText_append ?_ (isPlainText_fixed (by decide))
    cases d.engine <;> exact isPlainText_fixed (by decide)
  have credentials : (credentialsLayout d.engine).Sound :=
    .one (.fixed (by decide)) (Slot.fits_asIs _ user) (.fixed (by decide))
  simp only [layouts, ownLayouts, List.cons_append, List.nil_append, List.forall_mem_cons]
  exact ⟨groupLayout_sound hs hn, headLayout_sound hs (.fixed (by decide)),
    textLayout_sound _ (.fixed (q := '\'') (by decide)) (.fixed (by decide)), credentials,
    textLayout_sound _ (.fixed (q := '\'') (by decide)) (.fixed (by decide)), List.forall_mem_nil _⟩

theorem Bucket.address_sound (nodeId : String) : (outputLayout (address nodeId symbol)).Sound :=
  outputLayout_sound (isPlainText_append hs.plain (isPlainText_fixed (by decide)))
    (isCode_append hs.isCode (isCode_fixed (by decide)))

theorem Bucket.layouts_sound (b : Bucket) (nodeId : String) :
    ∀ l ∈ b.layouts nodeId symbol, l.Sound := by
  have pages : ∀ l ∈ b.index.elim [] b.pageLayouts, l.Sound := by
    cases b.index with
    | none => exact List.forall_mem_nil _
    | some index =>
      simp only [Option.elim_some, pageLayouts, List.forall_mem_cons]
      exact ⟨textLayout_sound _ (.fixed (q := '\'') (by decide)) (.fixed (by decide)),
        textLayout_sound _ (.fixed (q := '\'') (by decide)) (.fixed (by decide)),
        List.forall_mem_nil _⟩
  have deployed : ∀ l ∈ b.appPath.elim [] (deploymentLayouts symbol), l.Sound := by
    cases b.appPath with
    | none => exact List.forall_mem_nil _
    | some path =>
      simp only [Option.elim_some, deploymentLayouts, List.forall_mem_cons]
      exact ⟨.one (.fixed (by decide)) (Slot.fits_asIs _ (hs.plain_satellite _))
          (.fixed (by decide)),
        textLayout_sound _ (.fixed (q := '\'') (by decide)) (.fixed (by decide)),
        List.forall_mem_nil _⟩
  unfold layouts
  have head : (headLayout " = s3.Bucket(self, '" symbol).Sound :=
    headLayout_sound hs (.fixed (by decide))
  refine List.forall_mem_append.mpr ⟨List.forall_mem_append.mpr ⟨List.forall_mem_append.mpr
    ⟨List.forall_mem_singleton.mpr head, pages⟩, deployed⟩, ?_⟩
  split
  · exact List.forall_mem_singleton.mpr (address_sound hs nodeId)
  · exact List.forall_mem_nil _

/-- **No text of a node can leave its literal**; only the managed policy of a server might. -/
theorem Quotes.sound {s : Scope} {n : Node} {ls : List Layout} (h : Quotes s n symbol ls)
    (hn : ∀ net, s.network? n = some net → net.Legible) :
    ∀ l ∈ ls, l.Sound ∨ n.kind = .server ∧ l = policyLayout symbol s.settings := by
  cases h with
  | vpc kind => exact List.forall_mem_singleton.mpr (Or.inl (networkLayout_sound hs))
  | server kind read within =>
    exact fun l hl => (Server.layouts_sound hs _ _ (hn _ within) l hl).imp_right (And.intro kind)
  | database kind read within =>
    exact fun l hl => Or.inl (Database.layouts_sound hs _ _ (hn _ within) l hl)
  | bucket kind read => exact fun l hl => Or.inl (Bucket.layouts_sound hs _ _ l hl)

end Sound

end Resource

/-! ## 8. Rules -/

namespace Access

open Fragment (Lays)

variable {target : Symbol}

/-- The code before the description of a rule. -/
def ruleLead (target : Symbol) (port : UInt16) : Option Symbol → String
  | none => (target.satellite .securityGroup).var ++ ".add_ingress_rule(ec2.Peer.any_ipv4(), "
      ++ ("ec2.Port.tcp(" ++ toString port.toNat ++ "), '")
  | some source => (target.satellite .securityGroup).var
      ++ ".connections.allow_from(ec2.Connections(security_groups=["
      ++ (source.satellite .securityGroup).var ++ "]), "
      ++ ("ec2.Port.tcp(" ++ toString port.toNat ++ "), '")

/-- The line of a rule. -/
def ruleLayout (services : Catalog) (e : Edge) (target : Symbol) (source? : Option Symbol)
    (port : UInt16) : Layout :=
  ⟨[.escaped (ruleLead target port source?) (services.label port e.service?)], "')"⟩

theorem rule_written (services : Catalog) (e : Edge) (target : Symbol) (source? : Option Symbol)
    (port : UInt16) :
    ruleLine services e target source? port =
      (ruleLayout services e target source? port).written := by
  unfold ruleLayout
  rw [Layout.written_escaped, Layout.written_nil]
  cases source? <;> unfold ruleLine portAndLabel ruleLead <;> simp only [String.append_assoc]

theorem ruleLayout_sound (services : Catalog) (e : Edge) (port : UInt16) (ht : target.Legible)
    {source? : Option Symbol} (hs : ∀ source, source? = some source → source.Legible) :
    (ruleLayout services e target source? port).Sound := by
  have tcp : Opens '\'' ("ec2.Port.tcp(" ++ toString port.toNat ++ "), '") :=
    .after (isCode_append (isCode_fixed (by decide)) (isCode_toString _)) (.fixed (by decide))
  have group := ht.isCode_satellite .securityGroup
  refine .one ?_ (Slot.fits_escaped _ _ _) (.fixed (q := '\'') (by decide))
  cases source? with
  | none => exact tcp.after (isCode_append group (isCode_fixed (by decide)))
  | some source =>
    have peer := (hs source rfl).isCode_satellite .securityGroup
    exact tcp.after (isCode_append (isCode_append (isCode_append group
      (isCode_fixed (by decide))) peer) (isCode_fixed (by decide)))

theorem openRules_lays (services : Catalog) (e : Edge) (target : Symbol) : ∀ ps : List UInt16,
    Lays (ps.flatMap (openRule services e target)) (ps.map (ruleLayout services e target none))
  | [] => .nil
  | port :: ps => .line (rule_written services e target none port)
      (openRules_lays services e target ps)

theorem groupRules_lays (services : Catalog) (e : Edge) (target source : Symbol) :
    ∀ ps : List UInt16, Lays (ps.flatMap (groupRule services e target source))
      (ps.map (ruleLayout services e target (some source)))
  | [] => .nil
  | port :: ps => .silent rfl <| .line (rule_written services e target (some source) port)
      (groupRules_lays services e target source ps)

theorem grantLine_isCode {database server : Symbol} (hd : database.Legible) (hs : server.Legible) :
    isCode (grantLine database server) = true :=
  isCode_append (isCode_append (isCode_append hd.isCode (isCode_fixed (by decide)))
    (hs.isCode_satellite .role)) (isCode_fixed (by decide))

/-- **The lines of an edge quote the descriptions of its rules**, one for each port. -/
theorem stepsWith_lays (services : Catalog) (e : Edge) (ps : List UInt16) (grants : Bool)
    (ht : target.Legible) {source? : Option Symbol}
    (hs : ∀ source, source? = some source → source.Legible) :
    Lays (stepsWith services e target ps grants source?)
      (ps.map (ruleLayout services e target source?)) := by
  cases source? with
  | none => exact .silent rfl <| .silent rfl <| openRules_lays services e target ps
  | some source =>
    have granted : Lays (if grants then secretGrant target source else []) [] := by
      split
      · exact .silent rfl <| .silent rfl <| .code (grantLine_isCode ht (hs source rfl)) .nil
      · exact .nil
    have rules : Lays ([.use .ec2, .reference (target.satellite .securityGroup).var]
        ++ ps.flatMap (groupRule services e target source))
        (ps.map (ruleLayout services e target (some source))) :=
      .silent rfl <| .silent rfl <| groupRules_lays services e target source ps
    exact rules.append_code granted

end Access

/-! ## 9. The lines around the fragments -/

namespace Stack

theorem isCode_of_isIdentifier {s : String} (h : Text.isIdentifier s = true) : isCode s = true :=
  isCode_of_word (Text.isAlphanum_of_isIdentifier h)

/-- The lines before the fragments have no literals. -/
theorem opening_isCode {className : String} (hc : isCode className = true) (modules : List Module) :
    ∀ l ∈ opening className modules, isCode l.text = true := by
  have statement : ∀ m : Module, isCode m.statement = true := by
    intro m
    cases m <;> exact isCode_fixed (by decide)
  simp only [opening, List.forall_mem_append, List.forall_mem_cons, List.forall_mem_map]
  exact ⟨⟨⟨isCode_fixed (by decide), isCode_fixed (by decide), isCode_fixed (by decide),
    List.forall_mem_nil _⟩, fun m _ => statement m⟩, isCode_around hc (by decide),
    isCode_fixed (by decide), isCode_fixed (by decide), List.forall_mem_nil _⟩

/-- The line that makes the stack. -/
def stackLayout (className stackName : String) : Layout :=
  ⟨[.asIs (className ++ "(app, '") stackName], "')"⟩

theorem stack_written (className stackName : String) :
    className ++ "(app, '" ++ stackName ++ "')" = (stackLayout className stackName).written := by
  simp only [stackLayout, Layout.written_asIs, Layout.written_nil, String.append_assoc]

theorem stackLayout_sound {className stackName : String} (hc : isCode className = true)
    (plain : isPlainText '\'' stackName = true) : (stackLayout className stackName).Sound :=
  .one (.after hc (.fixed (by decide))) (Slot.fits_asIs _ plain) (.fixed (by decide))

end Stack

end InfraDiagram
