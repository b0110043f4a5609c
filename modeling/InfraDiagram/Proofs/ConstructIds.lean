import InfraDiagram.Proofs.Allocation
import InfraDiagram.Proofs.QuotedLines

/-!
# Construct ids

A step that registers a resource, a satellite or an output writes the id as its first literal, right
after `(self, ` (`constructId?`). The declaration of a node registers its resource, some satellites
and perhaps an output, each under the name of the resource with a suffix
(`Resource.Declares.registers`). The first literal of any other step is no id.

This is about what single steps write, and about their first literals. A managed policy that leaves
its literal can put more ids into the text of a program; `Registrations` reads the text itself.
-/

namespace InfraDiagram

open Literal Reading

/-! ## 1. The id on a line -/

/-- What stands before an id. -/
def selfArgument : List Char := ['(', 's', 'e', 'l', 'f', ',', ' ']

/-- **The id that a line begins with**: its first literal, if that is the first argument after
    `self`. -/
def constructId? (text : String) : Option String :=
  match text.toList.dropWhile fun c => !isQuote c with
  | [] => none
  | q :: rest =>
    if selfArgument <:+ text.toList.takeWhile (fun c => !isQuote c) then
      some (String.ofList (rest.takeWhile (· != q)))
    else none

example : constructId? "a1 = ec2.Vpc(self, 'Net1', nat_gateways=1)" = some "Net1" := by
  decide

example : constructId? "role=f('(self, ', x)" = none := by decide

/-- The ids that a fragment registers. -/
def Fragment.constructIds (f : Fragment) : List String := f.texts.filterMap constructId?

/-- Code before a literal that is the first argument after `self`. -/
def PrecedesId (lead : String) : Prop := selfArgument <:+ lead.toList.dropLast

/-- The code before the first literal of a line. -/
theorem takeWhile_code {text : String} {q : Char} {cs rest : List Char}
    (e : text.toList = cs ++ q :: rest) (hcs : cs.all isCodeChar = true) (hq : isQuote q = true) :
    text.toList.takeWhile (fun c => !isQuote c) = cs ∧
      text.toList.dropWhile (fun c => !isQuote c) = q :: rest := by
  have code : ∀ c ∈ cs, (!isQuote c) = true := fun c hc =>
    (Bool.and_eq_true_iff.mp (List.all_eq_true.mp hcs c hc)).1
  have stop : ¬ (!isQuote q) = true := by simp [hq]
  constructor
  · rw [e, List.takeWhile_append_of_pos code,
      List.takeWhile_cons_of_neg (p := fun c => !isQuote c) stop, List.append_nil]
  · rw [e, List.dropWhile_append_of_pos code,
      List.dropWhile_cons_of_neg (p := fun c => !isQuote c) stop]

theorem constructId?_of_split {text : String} {q : Char} {cs rest : List Char}
    (e : text.toList = cs ++ q :: rest) (hcs : cs.all isCodeChar = true) (hq : isQuote q = true) :
    constructId? text = if selfArgument <:+ cs then
      some (String.ofList (rest.takeWhile (· != q))) else none := by
  obtain ⟨before, after⟩ := takeWhile_code e hcs hq
  simp only [constructId?, before, after]

/-- A line of code registers nothing. -/
theorem constructId?_of_isCode {text : String} (h : isCode text = true) :
    constructId? text = none := by
  have none_left : text.toList.dropWhile (fun c => !isQuote c) = [] :=
    List.dropWhile_eq_nil_iff.mpr fun c hc =>
      (Bool.and_eq_true_iff.mp (List.all_eq_true.mp h c hc)).1
  simp only [constructId?, none_left]

/-- A line whose first literal is no first argument after `self` registers nothing, whatever stands
    in the literal. -/
theorem constructId?_other {q : Char} {s : Slot} {slots : List Slot} {tail : String}
    (opens : Opens q s.lead) (other : ¬ PrecedesId s.lead) :
    constructId? (Layout.written ⟨s :: slots, tail⟩) = none := by
  obtain ⟨hq, cs, e, code⟩ := opens
  have split : (Layout.written ⟨s :: slots, tail⟩).toList = cs ++ q :: (s.inner.toList ++
      (slots.flatMap (fun s => s.lead.toList ++ s.inner.toList) ++ tail.toList)) := by
    simp [Layout.written, Layout.chars, e]
  rw [PrecedesId, e, List.dropLast_concat] at other
  rw [constructId?_of_split split code hq, if_neg other]

theorem Literal.Follows.exists_cons {q : Char} {slots : List Slot} {tail : String}
    (h : Follows q slots tail) :
    ∃ cs, slots.flatMap (fun s => s.lead.toList ++ s.inner.toList) ++ tail.toList = q :: cs := by
  cases h with
  | last closes =>
    obtain ⟨cs, e, -⟩ := closes
    exact ⟨cs, e⟩
  | next turns _ _ =>
    obtain ⟨-, c, cs, e, -⟩ := turns
    rw [List.flatMap_cons, e, List.append_assoc, List.append_assoc, List.cons_append]
    exact ⟨_, rfl⟩

/-- A plain text that is the first argument after `self` is registered. -/
theorem constructId?_asIs {q : Char} {lead text : String} {slots : List Slot} {tail : String}
    (opens : Opens q lead) (plain : isPlainText q text = true) (rest : Follows q slots tail)
    (own : PrecedesId lead) :
    constructId? (Layout.written ⟨.asIs lead text :: slots, tail⟩) = some text := by
  obtain ⟨hq, cs, e, code⟩ := opens
  obtain ⟨ds, follows⟩ := rest.exists_cons
  have split : (Layout.written ⟨.asIs lead text :: slots, tail⟩).toList =
      cs ++ q :: (text.toList ++ q :: ds) := by
    rw [Layout.written, String.toList_ofList, Layout.chars, List.flatMap_cons, List.append_assoc,
      List.append_assoc, follows]
    simp [Slot.asIs, Slot.inner, e]
  have apart : ∀ c ∈ text.toList, (c != q) = true := by
    intro c hc
    have := List.all_eq_true.mp plain c hc
    rw [isPlain, Bool.and_eq_true, Bool.and_eq_true] at this
    exact this.1.1
  have stop : ¬ (q != q) = true := by simp
  rw [PrecedesId, e, List.dropLast_concat] at own
  rw [constructId?_of_split split code hq, if_pos own, List.takeWhile_append_of_pos apart,
    List.takeWhile_cons_of_neg (p := (· != q)) stop, List.append_nil, String.ofList_toList]

/-! ## 2. Code before ids -/

theorem PrecedesId.fixed {cs : List Char} (h : selfArgument <:+ cs.dropLast) :
    PrecedesId (String.ofList cs) := by
  rw [PrecedesId, String.toList_ofList]
  exact h

theorem PrecedesId.after {v s : String} (h : PrecedesId s) : PrecedesId (v ++ s) := by
  unfold PrecedesId at h ⊢
  rw [String.toList_append]
  have nonempty : s.toList ≠ [] := by
    intro e
    rw [e] at h
    revert h
    decide
  rw [List.dropLast_append_of_ne_nil nonempty]
  exact h.trans (List.suffix_append _ _)

theorem not_precedesId_fixed {cs : List Char} (h : ¬ selfArgument <:+ cs.dropLast) :
    ¬ PrecedesId (String.ofList cs) := by
  rw [PrecedesId, String.toList_ofList]
  exact h

/-- Fixed text after which no id can stand, whatever stands before the text. -/
theorem not_precedesId_after {v : String} {cs : List Char} (nonempty : cs ≠ [])
    (h : ¬ selfArgument <:+ cs.dropLast ∧ ¬ cs.dropLast <:+ selfArgument) :
    ¬ PrecedesId (v ++ String.ofList cs) := by
  intro own
  rw [PrecedesId, String.toList_append, String.toList_ofList,
    List.dropLast_append_of_ne_nil nonempty] at own
  rcases List.suffix_or_suffix_of_suffix own (List.suffix_append _ _) with h' | h'
  · exact h.1 h'
  · exact h.2 h'

/-- Of a line whose texts cannot leave their literals, the first one is registered if it is the
    first argument after `self`. -/
theorem constructId?_of_sound {lead text : String} {slots : List Slot} {tail : String}
    (h : Layout.Sound ⟨.asIs lead text :: slots, tail⟩) (own : PrecedesId lead) :
    constructId? (Layout.written ⟨.asIs lead text :: slots, tail⟩) = some text := by
  cases h with
  | mk opens fits rest => exact constructId?_asIs opens (fits rfl) rest own

theorem constructId?_of_sound_other {s : Slot} {slots : List Slot} {tail : String}
    (h : Layout.Sound ⟨s :: slots, tail⟩) (other : ¬ PrecedesId s.lead) :
    constructId? (Layout.written ⟨s :: slots, tail⟩) = none := by
  cases h with
  | mk opens _ _ => exact constructId?_other opens other

/-! ## 3. What may be registered for a node -/

/-- What is registered for a node: its resource, a satellite, or its address as an output. -/
inductive Registration where
  | own
  | satellite (k : Satellite)
  | ipAddress
  | websiteUrl
  deriving DecidableEq, Repr

namespace Registration

/-- What an id adds to the name of the resource. -/
def suffix : Registration → String
  | .own => ""
  | .satellite k => k.resourceSuffix
  | .ipAddress => " IP Address"
  | .websiteUrl => " Website URL"

/-- The id under which something is registered for a resource. -/
def id (r : Registration) (resource : String) : String := resource ++ r.suffix

/-- Whether an output is registered. -/
def isOutput : Registration → Bool
  | .ipAddress => true
  | .websiteUrl => true
  | _ => false

theorem id_own (resource : String) : Registration.own.id resource = resource := String.append_empty

/-- All that may be registered. -/
def all : List Registration := [.own] ++ Satellite.all.map .satellite ++ [.ipAddress, .websiteUrl]

theorem mem_all (r : Registration) : r ∈ all := by
  cases r with
  | satellite k => cases k <;> decide
  | own => decide
  | ipAddress => decide
  | websiteUrl => decide

/-- No suffix ends another one, but for the empty one. -/
theorem eq_of_suffix {r r' : Registration} (h : r.suffix.toList <:+ r'.suffix.toList) :
    r = .own ∨ r = r' := by
  have table : ∀ r ∈ all, ∀ r' ∈ all, r.suffix.toList <:+ r'.suffix.toList → r = .own ∨ r = r' := by
    decide
  exact table r r.mem_all r' r'.mem_all h

/-- **An id with a suffix tells what is registered, and for which resource.** -/
theorem eq_of_id_eq {r r' : Registration} {c d : String} (hr : r ≠ .own) (hr' : r' ≠ .own)
    (h : r.id c = r'.id d) : r = r' ∧ c = d := by
  have hlist := congrArg String.toList h
  unfold id at hlist
  rw [String.toList_append, String.toList_append] at hlist
  have left : r.suffix.toList <:+ d.toList ++ r'.suffix.toList := ⟨c.toList, hlist⟩
  have right : r'.suffix.toList <:+ d.toList ++ r'.suffix.toList := List.suffix_append _ _
  have same : r = r' := by
    rcases List.suffix_or_suffix_of_suffix left right with h | h
    · exact (eq_of_suffix h).resolve_left hr
    · exact ((eq_of_suffix h).resolve_left hr').symm
  rw [same] at hlist
  exact ⟨same, String.toList_inj.mp (List.append_cancel_right hlist)⟩

/-- What is registered for one resource has different ids. -/
theorem id_left_inj {r r' : Registration} {resource : String} (h : r.id resource = r'.id resource) :
    r = r' := by
  have hlist := congrArg String.toList h
  unfold id at hlist
  rw [String.toList_append, String.toList_append] at hlist
  have same := List.append_cancel_left hlist
  rcases eq_of_suffix (same ▸ List.suffix_rfl : r.suffix.toList <:+ r'.suffix.toList) with own | e
  · rcases eq_of_suffix (same ▸ List.suffix_rfl : r'.suffix.toList <:+ r.suffix.toList) with
      own' | e
    · exact own.trans own'.symm
    · exact e.symm
  · exact e

/-- What is no output is registered under a name that the resource has taken. -/
theorem mem_family {r : Registration} (h : r.isOutput = false) (resource : String) :
    r.id resource ∈ Allocator.family resource := by
  refine Allocator.mem_family.mpr ?_
  cases r with
  | own => exact Or.inl (id_own resource)
  | satellite k => exact Or.inr ⟨k, rfl⟩
  | ipAddress => cases h
  | websiteUrl => cases h

/-- **Where names are kept apart, only an output and a resource can have one id.** -/
theorem clash {r r' : Registration} {c d : String}
    (apart : List.Disjoint (Allocator.family c) (Allocator.family d)) (h : r.id c = r'.id d) :
    r.isOutput = true ∧ r' = .own ∨ r = .own ∧ r'.isOutput = true := by
  by_cases own : r = .own
  · refine Or.inr ⟨own, ?_⟩
    by_contra hno
    have left := mem_family (r := r) (by rw [own]; rfl) c
    exact apart left (h ▸ mem_family (by simpa using hno) d)
  · by_cases own' : r' = .own
    · refine Or.inl ⟨?_, own'⟩
      by_contra hno
      have right := mem_family (r := r') (by rw [own']; rfl) d
      exact apart (mem_family (by simpa using hno) c) (h ▸ right)
    · obtain ⟨-, same⟩ := eq_of_id_eq own own' h
      exact absurd (same ▸ List.mem_cons_self) (apart List.mem_cons_self)

end Registration

/-! ## 4. What declarations register -/

/-- The ids on lines that have literals. -/
def registeredBy (ls : List Layout) : List String := ls.filterMap fun l => constructId? l.written

theorem registeredBy_append (ls ms : List Layout) :
    registeredBy (ls ++ ms) = registeredBy ls ++ registeredBy ms := List.filterMap_append

theorem registeredBy_cons_some {l : Layout} {id : String} (h : constructId? l.written = some id)
    (ls : List Layout) : registeredBy (l :: ls) = id :: registeredBy ls :=
  List.filterMap_cons_some h

theorem registeredBy_cons_none {l : Layout} (h : constructId? l.written = none)
    (ls : List Layout) : registeredBy (l :: ls) = registeredBy ls :=
  List.filterMap_cons_none h

namespace Fragment

/-- Only lines that have literals register something. -/
theorem Lays.constructIds {steps : List Step} {ls : List Layout} (h : Lays steps ls)
    (origin : Origin) : (build origin steps).constructIds = registeredBy ls := by
  rw [Fragment.constructIds, texts_build, registeredBy]
  induction h with
  | nil => rfl
  | line laid _ ih =>
    rw [List.filterMap_cons_some (f := Step.text?) rfl, laid, List.filterMap_cons,
      List.filterMap_cons, ih]
  | output laid _ ih =>
    rw [List.filterMap_cons_some (f := Step.text?) rfl, laid, List.filterMap_cons,
      List.filterMap_cons, ih]
  | code code _ ih =>
    rw [List.filterMap_cons_some (f := Step.text?) rfl,
      List.filterMap_cons_none (constructId?_of_isCode code), ih]
  | silent quiet _ ih => rw [List.filterMap_cons_none quiet, ih]

/-- **What a declaration registers**, for a resource of the given name. -/
structure Registers (f : Fragment) (resource : String) (rs : List Registration) : Prop where
  distinct : rs.Nodup
  own : .own ∈ rs
  ids : f.constructIds = rs.map (Registration.id · resource)
  outputs : f.outputs.map Output.outputId =
    (rs.filter Registration.isOutput).map (Registration.id · resource)

end Fragment

namespace Resource

variable {symbol net : Symbol} {settings : Settings}

section Ids

theorem id_outputLayout {o : Output} (h : (outputLayout o).Sound) :
    constructId? (outputLayout o).written = some o.outputId :=
  constructId?_of_sound h (.fixed (by decide))

variable (hs : symbol.Legible)
include hs

theorem id_networkLayout : constructId? (networkLayout symbol settings).written =
    some (Registration.own.id symbol.resource) := by
  rw [Registration.id_own]
  exact constructId?_of_sound (networkLayout_sound hs) (.after (.fixed (by decide)))

theorem id_groupLayout (hn : net.Legible) : constructId? (groupLayout symbol net).written =
    some (Registration.id (.satellite .securityGroup) symbol.resource) :=
  constructId?_of_sound (groupLayout_sound hs hn) (.after (.fixed (by decide)))

theorem id_roleLayout : constructId? (roleLayout symbol).written =
    some (Registration.id (.satellite .role) symbol.resource) :=
  constructId?_of_sound (roleLayout_sound hs) (.after (.fixed (by decide)))

/-- The first literal on the line of the managed policy is no id, whatever the policy is. -/
theorem id_policyLayout : constructId? (policyLayout symbol settings).written = none :=
  constructId?_other (opens_policyLead hs)
    (not_precedesId_after (List.cons_ne_nil _ _) (by decide))

theorem id_headLayout {call : String} (hc : Opens '\'' call) (own : PrecedesId call) :
    constructId? (headLayout call symbol).written = some (Registration.own.id symbol.resource) := by
  rw [Registration.id_own]
  exact constructId?_of_sound (headLayout_sound hs hc) own.after

end Ids

/-- A line with an escaped text registers nothing unless the text follows `self`. -/
theorem id_textLayout {lead tail : String} {q : Char} (text : String) (opens : Opens q lead)
    (other : ¬ PrecedesId lead) : constructId? (textLayout lead text tail).written = none :=
  constructId?_other opens other

namespace Server

/-- What is registered for a server. -/
def registrations (s : Server) : List Registration :=
  [.satellite .securityGroup, .satellite .role] ++ [.own]
    ++ (if s.appPath.isSome then [.satellite .asset] else []) ++ [.ipAddress]

theorem registeredBy_own (s : Server) (hs : symbol.Legible) :
    registeredBy (s.ownLayouts symbol) = [Registration.own.id symbol.resource] := by
  have image : registeredBy (s.ami.elim [] fun ami => [imageLayout s.zone ami]) = [] := by
    cases s.ami with
    | none => rfl
    | some ami =>
      exact registeredBy_cons_none (constructId?_of_sound_other (imageLayout_sound s.zone ami)
        (not_precedesId_after (List.cons_ne_nil _ _) (by decide))) []
  rw [ownLayouts, registeredBy_append, image,
    registeredBy_cons_some (id_headLayout hs (.fixed (by decide)) (.fixed (by decide))),
    registeredBy_cons_none (id_textLayout (q := '\'') _ (.fixed (by decide))
      (not_precedesId_fixed (by decide)))]
  rfl

theorem registeredBy_application (path : String) (hs : symbol.Legible) :
    registeredBy (applicationLayouts symbol path) =
      [Registration.id (.satellite .asset) symbol.resource] := by
  obtain ⟨-, copied, unzipped, -⟩ : _ ∧ _ ∧ _ ∧ _ := by
    simpa only [applicationLayouts, List.forall_mem_cons] using applicationLayouts_sound hs path
  have asset : constructId? (assetLayout symbol path).written =
      some (symbol.satellite .asset).resource :=
    constructId?_of_sound (assetLayout_sound hs path) (.after (.fixed (by decide)))
  have copy : constructId? (copyLayout symbol).written = none :=
    constructId?_of_sound_other copied (not_precedesId_after (List.cons_ne_nil _ _) (by decide))
  have unzip : constructId? (unzipLayout symbol).written = none :=
    constructId?_of_sound_other unzipped (not_precedesId_after (List.cons_ne_nil _ _) (by decide))
  rw [applicationLayouts, registeredBy_cons_some asset, registeredBy_cons_none copy,
    registeredBy_cons_none unzip]
  rfl

theorem registeredBy_layouts (s : Server) (nodeId : String) (hs : symbol.Legible)
    (hn : net.Legible) :
    registeredBy (s.layouts settings nodeId symbol net) =
      s.registrations.map (Registration.id · symbol.resource) := by
  have own := s.registeredBy_own hs
  have applied : registeredBy (s.appPath.elim [] (applicationLayouts symbol)) =
      (if s.appPath.isSome then [.satellite .asset] else []).map
        (Registration.id · symbol.resource) := by
    cases s.appPath with
    | none => rfl
    | some path => exact registeredBy_application path hs
  have scripted :
      registeredBy (s.userData.elim [] fun text => [scriptLayout symbol text]) = [] := by
    cases s.userData with
    | none => rfl
    | some text =>
      exact registeredBy_cons_none (constructId?_of_sound_other (scriptLayout_sound hs text)
        (not_precedesId_after (List.cons_ne_nil _ _) (by decide))) []
  simp only [layouts, registrations, registeredBy_append, List.map_append, own, applied, scripted]
  rw [registeredBy_cons_some (id_groupLayout hs hn), registeredBy_cons_some (id_roleLayout hs),
    registeredBy_cons_none (id_policyLayout hs),
    registeredBy_cons_some (id_outputLayout (address_sound hs nodeId)), List.append_nil]
  rfl

theorem outputs_steps (s : Server) (nodeId : String) (symbol net : Symbol) (isPublic : Bool) :
    (s.steps settings nodeId symbol net isPublic).filterMap Fragment.Step.output? =
      [address nodeId symbol] := by
  rw [steps_eq]
  cases s.appPath <;> cases s.userData <;> cases isPublic <;> rfl

theorem steps_registers (s : Server) (nodeId : String) (isPublic : Bool) (hs : symbol.Legible)
    (hn : net.Legible) (origin : Origin) :
    (Fragment.build origin (s.steps settings nodeId symbol net isPublic)).Registers symbol.resource
      s.registrations where
  distinct := by
    unfold registrations
    cases s.appPath.isSome <;> decide
  own := by simp [registrations]
  ids := by
    rw [(s.steps_lays nodeId isPublic hs hn).constructIds, s.registeredBy_layouts nodeId hs hn]
  outputs := by
    rw [Fragment.outputs_build, outputs_steps]
    unfold registrations
    cases s.appPath <;> rfl

end Server

namespace Database

theorem outputs_steps (d : Database) (stackName : String) (symbol net : Symbol) (isPublic : Bool) :
    (d.steps settings stackName symbol net isPublic).filterMap Fragment.Step.output? = [] := by
  cases isPublic <;> rfl

theorem steps_registers (d : Database) (stackName : String) (isPublic : Bool) (hs : symbol.Legible)
    (hn : net.Legible) (origin : Origin) :
    (Fragment.build origin (d.steps settings stackName symbol net isPublic)).Registers
      symbol.resource [.satellite .securityGroup, .own] where
  distinct := by decide
  own := by decide
  ids := by
    have credentials : constructId? (credentialsLayout d.engine).written = none :=
      constructId?_other (.fixed (q := '\'') (by decide))
        (not_precedesId_fixed (by decide))
    rw [(d.steps_lays stackName isPublic hs hn).constructIds, layouts, ownLayouts,
      registeredBy_append, registeredBy_append,
      registeredBy_cons_some (id_groupLayout hs hn),
      registeredBy_cons_some (id_headLayout hs (.fixed (by decide)) (.fixed (by decide))),
      registeredBy_cons_none (id_textLayout (q := '\'') _ (.fixed (by decide))
        (not_precedesId_fixed (by decide))),
      registeredBy_cons_none credentials,
      registeredBy_cons_none (id_textLayout (q := '\'') _ (.fixed (by decide))
        (not_precedesId_fixed (by decide)))]
    rfl
  outputs := by
    rw [Fragment.outputs_build, d.outputs_steps]
    rfl

end Database

namespace Bucket

/-- What is registered for a bucket. -/
def registrations (b : Bucket) : List Registration :=
  [.own] ++ (if b.appPath.isSome then [.satellite .deployment] else [])
    ++ if b.index.isSome then [.websiteUrl] else []

theorem outputs_steps (b : Bucket) (nodeId : String) (symbol : Symbol) :
    (b.steps nodeId symbol).filterMap Fragment.Step.output? =
      if b.index.isSome then [address nodeId symbol] else [] := by
  rw [steps_eq, declaration, visibility]
  cases b.appPath <;> cases b.index <;> rfl

theorem steps_registers (b : Bucket) (nodeId : String) (hs : symbol.Legible) (origin : Origin) :
    (Fragment.build origin (b.steps nodeId symbol)).Registers symbol.resource b.registrations where
  distinct := by
    unfold registrations
    cases b.appPath.isSome <;> cases b.index.isSome <;> decide
  own := by simp [registrations]
  ids := by
    have paged : registeredBy (b.index.elim [] b.pageLayouts) = [] := by
      cases b.index with
      | none => rfl
      | some index =>
        rw [Option.elim_some, pageLayouts,
          registeredBy_cons_none (id_textLayout (q := '\'') _ (.fixed (by decide))
            (not_precedesId_fixed (by decide))),
          registeredBy_cons_none (id_textLayout (q := '\'') _ (.fixed (by decide))
            (not_precedesId_fixed (by decide)))]
        rfl
    have deployed : registeredBy (b.appPath.elim [] (deploymentLayouts symbol)) =
        (if b.appPath.isSome then [.satellite .deployment] else []).map
          (Registration.id · symbol.resource) := by
      cases b.appPath with
      | none => rfl
      | some path =>
        have own : constructId? (deploymentLayout symbol).written =
            some (symbol.satellite .deployment).resource :=
          constructId?_asIs (.fixed (q := '\'') (by decide)) (hs.plain_satellite _)
            (.last (.fixed (by decide))) (.fixed (by decide))
        rw [Option.elim_some, deploymentLayouts, registeredBy_cons_some own,
          registeredBy_cons_none (id_textLayout (q := '\'') _ (.fixed (by decide))
            (not_precedesId_fixed (by decide)))]
        rfl
    have addressed : registeredBy (if b.index.isSome then [outputLayout (address nodeId symbol)]
        else []) = (if b.index.isSome then [.websiteUrl] else []).map
          (Registration.id · symbol.resource) := by
      split
      · rw [registeredBy_cons_some (id_outputLayout (address_sound hs nodeId))]
        rfl
      · rfl
    simp only [(b.steps_lays nodeId hs).constructIds, layouts, registrations, registeredBy_append,
      List.map_append, paged, deployed, addressed]
    rw [registeredBy_cons_some (id_headLayout hs (.fixed (by decide)) (.fixed (by decide))),
      List.append_nil]
    rfl
  outputs := by
    rw [Fragment.outputs_build, b.outputs_steps, registrations]
    cases b.appPath <;> cases b.index <;> rfl

end Bucket

/-- The declaration of a network registers the network only. -/
theorem network_registers (hs : symbol.Legible) (origin : Origin) :
    (Fragment.build origin (network symbol settings)).Registers symbol.resource [.own] where
  distinct := by decide
  own := by decide
  ids := by
    rw [(network_lays symbol settings).constructIds, registeredBy_cons_some (id_networkLayout hs)]
    rfl
  outputs := by
    rw [Fragment.outputs_build]
    rfl

/-- **The declaration of a node registers its resource and what belongs to it**, each once. -/
theorem Declares.registers {s : Scope} {n : Node} {steps : List Fragment.Step}
    (h : Declares s n symbol steps) (hs : symbol.Legible)
    (hn : ∀ net, s.network? n = some net → net.Legible) (origin : Origin) :
    ∃ rs, (Fragment.build origin steps).Registers symbol.resource rs := by
  cases h with
  | vpc kind => exact ⟨_, network_registers hs origin⟩
  | server kind read within =>
    exact ⟨_, Server.steps_registers _ _ _ hs (hn _ within) origin⟩
  | database kind read within =>
    exact ⟨_, Database.steps_registers _ _ _ hs (hn _ within) origin⟩
  | bucket kind read => exact ⟨_, Bucket.steps_registers _ _ hs origin⟩

end Resource

namespace Access

/-- The description of a rule is no id. -/
theorem not_precedesId_ruleLead (target : Symbol) (port : UInt16) (source? : Option Symbol) :
    ¬ PrecedesId (ruleLead target port source?) := by
  have tcp : ∀ v port : String, ¬ PrecedesId (v ++ ("ec2.Port.tcp(" ++ port ++ "), '")) := by
    intro v port
    rw [← String.append_assoc]
    exact not_precedesId_after (List.cons_ne_nil _ _) (by decide)
  cases source? <;> exact tcp _ _

/-- **Rules register nothing.** -/
theorem registeredBy_rules (services : Catalog) (e : Edge) {target : Symbol}
    (ht : target.Legible) {source? : Option Symbol}
    (hs : ∀ source, source? = some source → source.Legible) (ps : List UInt16) :
    registeredBy (ps.map (ruleLayout services e target source?)) = [] := by
  induction ps with
  | nil => rfl
  | cons port ps ih =>
    rw [List.map_cons, registeredBy_cons_none, ih]
    exact constructId?_of_sound_other (ruleLayout_sound services e port ht hs)
      (not_precedesId_ruleLead target port source?)

end Access

end InfraDiagram
