import InfraDiagram.Proofs.ConstructIds
import InfraDiagram.Proofs.SourceLines

/-!
# What a program text registers

A line of the text is taken apart, and every literal on it that stands right after `(self, ` is an
id, registered for the class that is called there (`registered`). This is read off the text alone:
off every line of it, and every literal of a line.

The lines of a program register at most one thing each, under their first literal
(`Literal.Layout.Lone`). So if the managed policy stays in its literal, what the text registers is
what its lines do, one by one (`Stack.registered_of_mem`).
-/

namespace InfraDiagram

open Literal Reading

/-! ## 1. The literals of a line -/

namespace Literal

/-- The pieces of a line that is cut at its quotes, of which every second one is in a literal: the
    code before each literal, with what the literal means. -/
def pairUp : List (List Char) → List String → List (List Char × String)
  | code :: _ :: pieces, content :: contents => (code, content) :: pairUp pieces contents
  | _, _ => []

theorem pairUp_nil (pieces : List (List Char)) : pairUp pieces [] = [] := by
  cases pieces with
  | nil => rfl
  | cons code pieces => cases pieces <;> rfl

/-- **The literals of a line**, each with the code between it and the one before. -/
def literals (text : String) : List (List Char × String) :=
  match scan? text with
  | some s => pairUp (s.shell.toList.splitOnP isQuote) s.contents
  | none => []

example : literals "f('it\\'s', g(\"\"))" = [(['f', '('], "it's"), ([',', ' ', 'g', '('], "")] := by
  decide

/-- The code before a text, without quotes. -/
def Slot.code (s : Slot) : List Char := s.lead.toList.filter fun c => !isQuote c

theorem isQuote_of_code {cs : List Char} (h : cs.all isCodeChar = true) :
    ∀ c ∈ cs, isQuote c = false := by
  intro c hc
  have code := List.all_eq_true.mp h c hc
  rw [isCodeChar, Bool.and_eq_true, Bool.not_eq_true'] at code
  exact code.1

theorem filter_code {cs : List Char} (h : cs.all isCodeChar = true) :
    cs.filter (fun c => !isQuote c) = cs :=
  List.filter_eq_self.mpr fun c hc => by rw [isQuote_of_code h c hc]; rfl

theorem Opens.lead_eq {q : Char} {s : Slot} (h : Opens q s.lead) :
    s.lead.toList = s.code ++ [q] ∧ ∀ c ∈ s.code, isQuote c = false := by
  obtain ⟨hq, cs, e, code⟩ := h
  have own : s.code = cs := by
    rw [Slot.code, e, List.filter_append, filter_code code]
    simp [hq]
  rw [own]
  exact ⟨e, isQuote_of_code code⟩

theorem Turns.lead_eq {q q' : Char} {s : Slot} (hq : isQuote q = true) (h : Turns q q' s.lead) :
    s.lead.toList = q :: (s.code ++ [q']) ∧ ∀ c ∈ s.code, isQuote c = false := by
  obtain ⟨hq', c, cs, e, code⟩ := h
  have own : s.code = c :: cs := by
    rw [Slot.code, e, List.filter_cons_of_neg (by simp [hq]), ← List.cons_append,
      List.filter_append, filter_code code]
    simp [hq']
  rw [own]
  exact ⟨e, isQuote_of_code code⟩

/-- What follows a text is cut into an empty piece, which is what is left of the text, and the
    pieces of the literals after it. -/
theorem Follows.exists_pieces {q : Char} {slots : List Slot} {tail : String}
    (h : Follows q slots tail) (hq : isQuote q = true) :
    ∃ pieces, (slots.flatMap (fun s => s.lead.toList) ++ tail.toList).splitOnP isQuote =
        [] :: pieces ∧
      ∀ f : Slot → String, pairUp pieces (slots.map f) = slots.map fun s => (s.code, f s) := by
  induction h with
  | last closes =>
    obtain ⟨cs, e, code⟩ := closes
    refine ⟨[cs], ?_, fun f => rfl⟩
    rw [List.flatMap_nil, List.nil_append, e, List.splitOnP_cons_eq_if_modifyHead, if_pos hq,
      List.splitOnP_eq_singleton (isQuote_of_code code)]
  | @next q q' s slots tail turns fits _ ih =>
    obtain ⟨pieces, cut, paired⟩ := ih turns.1
    obtain ⟨e, code⟩ := turns.lead_eq hq
    refine ⟨s.code :: [] :: pieces, ?_, fun f => ?_⟩
    · rw [List.flatMap_cons, e, List.cons_append, List.cons_append,
        List.splitOnP_cons_eq_if_modifyHead, if_pos hq, List.append_assoc, List.append_assoc,
        List.singleton_append, List.splitOnP_append_cons_of_forall_mem code q' turns.1, cut]
    · rw [List.map_cons, pairUp, paired, List.map_cons]

/-- **The literals of a line are its texts**, if no text can leave its literal. -/
theorem literals_written {l : Layout} (h : l.Sound) :
    literals l.written = l.slots.map fun s => (s.code, withoutReturns s.text) := by
  have scanned := scan?_written h
  obtain @⟨q, s, slots, tail, opens, fits, rest⟩ := h
  obtain ⟨pieces, cut, paired⟩ := rest.exists_pieces opens.1
  obtain ⟨e, code⟩ := opens.lead_eq
  have shell : (Layout.scan ⟨s :: slots, tail⟩).shell.toList =
      s.code ++ q :: (slots.flatMap (fun s => s.lead.toList) ++ tail.toList) := by
    simp [Layout.scan, Layout.shell, e]
  have contents : (Layout.scan ⟨s :: slots, tail⟩).contents =
      withoutReturns s.text :: slots.map fun s => withoutReturns s.text := by
    simp [Layout.scan, Layout.texts, Function.comp_def]
  rw [literals, scanned]
  simp only
  rw [shell, contents, List.splitOnP_append_cons_of_forall_mem code q opens.1, cut, pairUp, paired,
    List.map_cons]

/-- A line of code has no literals. -/
theorem literals_of_isCode {text : String} (h : isCode text = true) : literals text = [] := by
  rw [literals, scan?_of_isCode h]
  exact pairUp_nil _

end Literal

/-! ## 2. Classes and ids -/

/-- The characters in the name of a class, which its module comes before. -/
def isClassChar (c : Char) : Bool := c.isAlphanum || c == '_' || c == '.'

/-- The class at the end of some code, if the code ends by calling it with `self`. -/
def classCalled? (code : List Char) : Option String :=
  if selfArgument <:+ code then
    some (String.ofList ((code.reverse.drop selfArgument.length).takeWhile isClassChar).reverse)
  else none

/-- **What a line registers**: each of its literals that is the first argument after `self`, with
    the class that is called. -/
def registered (line : String) : List (String × String) :=
  (literals line).filterMap fun x => (classCalled? x.1).map fun called => (called, x.2)

example : registered "x = f(s3.Bucket(self, 'a'), y='(self, ', z=iam.Role(self, \"b\"))" =
    [("s3.Bucket", "a"), ("iam.Role", "b")] := by decide

/-- **The ids that a text registers**, in the order of its lines. -/
def sourceIds (source : String) : List String :=
  ((sourceLines source).flatMap registered).map Prod.snd

/-- **The lines of a text that instantiate a class**, each as often as it does. -/
def sourceInstances (called source : String) : List String :=
  (sourceLines source).flatMap fun line =>
    ((registered line).filter fun x => x.1 == called).map fun _ => line

theorem mem_sourceInstances {called source line : String} :
    line ∈ sourceInstances called source ↔
      line ∈ sourceLines source ∧ ∃ x ∈ registered line, x.1 = called := by
  simp only [sourceInstances, List.mem_flatMap, List.mem_map, List.mem_filter, beq_iff_eq]
  constructor
  · rintro ⟨t, ht, x, ⟨hx, e⟩, rfl⟩
    exact ⟨ht, x, hx, e⟩
  · rintro ⟨hl, x, hx, e⟩
    exact ⟨line, hl, x, ⟨hx, e⟩, rfl⟩

/-- **The class that a line instantiates**, if it registers something under its first literal. -/
def instantiated? (text : String) : Option String :=
  (constructId? text).bind fun _ => classCalled? (text.toList.takeWhile fun c => !isQuote c)

example : instantiated? "a2_sg = ec2.SecurityGroup(self, 'Web1-SecurityGroup', vpc=a1)" =
    some "ec2.SecurityGroup" := by decide

example : instantiated? "a2.add_user_data('x = iam.Role(self, ')" = none := by decide

theorem instantiated?_of_constructId? {text : String} (h : constructId? text = none) :
    instantiated? text = none := by
  rw [instantiated?, h]
  rfl

/-- A line that has an id has a class. -/
theorem exists_instantiated? {text id : String} (h : constructId? text = some id) :
    ∃ called, instantiated? text = some called := by
  rw [instantiated?, h, Option.bind_some]
  unfold constructId? at h
  split at h
  · cases h
  · split at h
    · rename_i own
      rw [classCalled?, if_pos own]
      exact ⟨_, rfl⟩
    · cases h

/-- The class that the first literal of a layout follows. -/
def Literal.Layout.class? (l : Layout) : Option String :=
  l.slots.head?.bind fun s => classCalled? s.lead.toList.dropLast

/-- A layout whose first literal is opened after code. -/
def Literal.Layout.Opened (l : Layout) : Prop :=
  ∃ q s slots, l.slots = s :: slots ∧ Opens q s.lead

theorem Literal.Layout.Sound.opened {l : Layout} (h : l.Sound) : l.Opened := by
  cases h with
  | mk opens _ _ => exact ⟨_, _, _, rfl, opens⟩

/-- **The class on a line is told by its layout**, whatever stands in the literals. -/
theorem instantiated?_written {l : Layout} (h : l.Opened) : instantiated? l.written = l.class? := by
  obtain ⟨all, tail⟩ := l
  obtain ⟨q, s, slots, hslots, hq, cs, e, code⟩ := h
  obtain rfl : all = s :: slots := hslots
  have split : (Layout.written ⟨s :: slots, tail⟩).toList = cs ++ q :: (s.inner.toList ++
      (slots.flatMap (fun s => s.lead.toList ++ s.inner.toList) ++ tail.toList)) := by
    simp [Layout.written, Layout.chars, e]
  have lead : Layout.class? ⟨s :: slots, tail⟩ = classCalled? cs := by
    show classCalled? s.lead.toList.dropLast = _
    rw [e, List.dropLast_concat]
  rw [instantiated?, (takeWhile_code split code hq).1, constructId?_of_split split code hq, lead]
  by_cases own : selfArgument <:+ cs
  · rw [if_pos own]
    rfl
  · rw [if_neg own, classCalled?, if_neg own]
    rfl

/-! ## 3. Lines that register one thing -/

/-- What a line registers under its first literal. -/
def registration? (text : String) : Option (String × String) :=
  (instantiated? text).bind fun called => (constructId? text).map fun id => (called, id)

/-- **A line that registers at most one thing**, under its first literal, which is written as it
    is. -/
structure Literal.Layout.Lone (l : Layout) : Prop where
  first : ∀ s ∈ l.slots.head?, PrecedesId s.lead → s.raw = true
  later : ∀ s ∈ l.slots.tail, ¬ PrecedesId s.lead

namespace Literal.Layout.Lone

variable {lead text tail : String} {s t : Slot}

theorem own : Lone ⟨[.asIs lead text], tail⟩ :=
  ⟨fun s hs _ => by cases hs; rfl, List.forall_mem_nil _⟩

theorem other (h : ¬ PrecedesId s.lead) : Lone ⟨[s], tail⟩ :=
  ⟨fun s hs own => by cases hs; exact absurd own h, List.forall_mem_nil _⟩

theorem ownThen (h : ¬ PrecedesId t.lead) : Lone ⟨[.asIs lead text, t], tail⟩ :=
  ⟨fun s hs _ => by cases hs; rfl, List.forall_mem_singleton.mpr h⟩

theorem otherThen (hs : ¬ PrecedesId s.lead) (ht : ¬ PrecedesId t.lead) : Lone ⟨[s, t], tail⟩ :=
  ⟨fun s h own => by cases h; exact absurd own hs, List.forall_mem_singleton.mpr ht⟩

end Literal.Layout.Lone

/-- Literals after the first one of such a line register nothing. -/
theorem Literal.Follows.registers_nothing {q : Char} {slots : List Slot} {tail : String}
    (h : Follows q slots tail) (hq : isQuote q = true) (later : ∀ s ∈ slots, ¬ PrecedesId s.lead) :
    slots.filterMap (fun s => (classCalled? s.code).map fun called =>
      (called, withoutReturns s.text)) = [] := by
  induction h with
  | last closes => rfl
  | @next q q' s slots tail turns fits _ ih =>
    obtain ⟨own, later⟩ := List.forall_mem_cons.mp later
    obtain ⟨e, -⟩ := turns.lead_eq hq
    have dropped : s.lead.toList.dropLast = q :: s.code := by
      rw [e, ← List.cons_append, List.dropLast_concat]
    have none : classCalled? s.code = none := by
      refine if_neg fun suffix => own ?_
      rw [PrecedesId, dropped]
      exact suffix.trans (List.suffix_cons _ _)
    rw [List.filterMap_cons_none (by rw [none]; rfl), ih turns.1 later]

/-- **Such a line registers what its first literal does.** -/
theorem registered_written {l : Layout} (sound : l.Sound) (lone : l.Lone) :
    registered l.written = (registration? l.written).toList := by
  have opened := sound.opened
  rw [registered, literals_written sound, registration?, instantiated?_written opened]
  obtain @⟨q, s, slots, tail, opens, fits, rest⟩ := sound
  obtain ⟨e, -⟩ := opens.lead_eq
  have code : s.lead.toList.dropLast = s.code := by rw [e, List.dropLast_concat]
  have called : Layout.class? ⟨s :: slots, tail⟩ = classCalled? s.code := by
    show classCalled? s.lead.toList.dropLast = _
    rw [code]
  have nothing := rest.registers_nothing opens.1 lone.later
  rw [List.filterMap_map, List.filterMap_cons, called]
  by_cases own : PrecedesId s.lead
  · obtain ⟨lead, text, raw⟩ := s
    obtain rfl : raw = true := lone.first _ rfl own
    have plain : isPlainText q text = true := fits rfl
    have id : constructId? (Layout.written ⟨⟨lead, text, true⟩ :: slots, tail⟩) = some text :=
      constructId?_asIs opens plain rest own
    have same : withoutReturns text = text := by
      rw [withoutReturns, Scanner.filter_of_plain plain, String.ofList_toList]
    rw [PrecedesId, code] at own
    simp only [Function.comp_apply, classCalled?, if_pos own, Option.map_some, Option.bind_some, id,
      Option.toList_some, same]
    exact congrArg _ nothing
  · rw [PrecedesId, code] at own
    simp only [Function.comp_apply, classCalled?, if_neg own, Option.map_none, Option.bind_none,
      Option.toList_none]
    exact nothing

/-- A line of code registers nothing. -/
theorem registered_of_isCode {text : String} (h : isCode text = true) :
    registered text = (registration? text).toList := by
  rw [registered, literals_of_isCode h, registration?,
    instantiated?_of_constructId? (constructId?_of_isCode h)]
  rfl

/-- Lines that register at most one thing each. -/
theorem Literal.LaysOut.registered {texts : List String} {ls : List Layout} (h : LaysOut texts ls)
    (sound : ∀ l ∈ ls, l.Sound) (lone : ∀ l ∈ ls, l.Lone) :
    ∀ t ∈ texts, registered t = (registration? t).toList := by
  induction h with
  | nil => exact List.forall_mem_nil _
  | code code _ ih => exact List.forall_mem_cons.mpr ⟨registered_of_isCode code, ih sound lone⟩
  | literal _ ih =>
    obtain ⟨first, sound⟩ := List.forall_mem_cons.mp sound
    obtain ⟨first', lone⟩ := List.forall_mem_cons.mp lone
    exact List.forall_mem_cons.mpr ⟨registered_written first first', ih sound lone⟩

/-! ## 4. The lines of a program register one thing each -/

namespace Resource

open Literal.Layout (Lone)

variable {symbol net : Symbol} {settings : Settings}

theorem textLayout_lone {lead text tail : String} (h : ¬ PrecedesId lead) :
    (textLayout lead text tail).Lone := .other h

theorem Server.layouts_lone (s : Server) (nodeId : String) :
    ∀ l ∈ s.layouts settings nodeId symbol net, l.Lone := by
  have role : (roleLayout symbol).Lone := .ownThen (not_precedesId_fixed (by decide))
  have policy : (policyLayout symbol settings).Lone := .own
  have image : ∀ l ∈ s.ami.elim [] fun ami => [imageLayout s.zone ami], l.Lone := by
    cases s.ami with
    | none => exact List.forall_mem_nil _
    | some ami =>
      exact List.forall_mem_singleton.mpr (.otherThen
        (not_precedesId_after (List.cons_ne_nil _ _) (by decide))
        (not_precedesId_fixed (by decide)))
  have applied : ∀ l ∈ s.appPath.elim [] (applicationLayouts symbol), l.Lone := by
    cases s.appPath with
    | none => exact List.forall_mem_nil _
    | some path =>
      simp only [Option.elim_some, applicationLayouts, List.forall_mem_cons]
      exact ⟨.ownThen (not_precedesId_fixed (by decide)), .own, .own, List.forall_mem_nil _⟩
  have scripted : ∀ l ∈ s.userData.elim [] (fun text => [scriptLayout symbol text]), l.Lone := by
    cases s.userData with
    | none => exact List.forall_mem_nil _
    | some text =>
      exact List.forall_mem_singleton.mpr (textLayout_lone
        (not_precedesId_after (List.cons_ne_nil _ _) (by decide)))
  simp only [layouts, ownLayouts, List.forall_mem_append, List.forall_mem_cons]
  exact ⟨⟨⟨⟨⟨⟨.own, List.forall_mem_nil _⟩, role, policy, List.forall_mem_nil _⟩,
    ⟨.own, textLayout_lone (not_precedesId_fixed (by decide)), List.forall_mem_nil _⟩, image⟩,
    applied⟩, scripted⟩, .own, List.forall_mem_nil _⟩

theorem Database.layouts_lone (d : Database) (name : String) :
    ∀ l ∈ d.layouts name symbol net, l.Lone := by
  simp only [layouts, ownLayouts, List.forall_mem_append, List.forall_mem_cons]
  exact ⟨⟨.own, List.forall_mem_nil _⟩,
    ⟨.own, textLayout_lone (not_precedesId_fixed (by decide)), List.forall_mem_nil _⟩,
    .own, textLayout_lone (not_precedesId_fixed (by decide)), List.forall_mem_nil _⟩

theorem Bucket.layouts_lone (b : Bucket) (nodeId : String) :
    ∀ l ∈ b.layouts nodeId symbol, l.Lone := by
  have pages : ∀ l ∈ b.index.elim [] b.pageLayouts, l.Lone := by
    cases b.index with
    | none => exact List.forall_mem_nil _
    | some index =>
      simp only [Option.elim_some, pageLayouts, List.forall_mem_cons]
      exact ⟨textLayout_lone (not_precedesId_fixed (by decide)),
        textLayout_lone (not_precedesId_fixed (by decide)), List.forall_mem_nil _⟩
  have deployed : ∀ l ∈ b.appPath.elim [] (deploymentLayouts symbol), l.Lone := by
    cases b.appPath with
    | none => exact List.forall_mem_nil _
    | some path =>
      simp only [Option.elim_some, deploymentLayouts, List.forall_mem_cons]
      exact ⟨.own, textLayout_lone (not_precedesId_fixed (by decide)), List.forall_mem_nil _⟩
  simp only [layouts, List.forall_mem_append, List.forall_mem_singleton]
  refine ⟨⟨⟨.own, pages⟩, deployed⟩, ?_⟩
  split
  · exact List.forall_mem_singleton.mpr .own
  · exact List.forall_mem_nil _

theorem Quotes.lone {s : Scope} {n : Node} {ls : List Layout} (h : Quotes s n symbol ls) :
    ∀ l ∈ ls, l.Lone := by
  cases h with
  | vpc kind => exact List.forall_mem_singleton.mpr .own
  | server kind read within => exact Server.layouts_lone _ _
  | database kind read within => exact Database.layouts_lone _ _
  | bucket kind read => exact Bucket.layouts_lone _ _

end Resource

namespace Stack

variable {settings : Settings} {g : Graph} {name : String} {p : Parts}

theorem Embeds.lone {f : Fragment} {ls : List Layout} (h : Embeds settings g name p f ls) :
    ∀ l ∈ ls, l.Lone := by
  cases h with
  | node mem origin named quotes => exact quotes.lone
  | network origin named => exact List.forall_mem_singleton.mpr .own
  | edge mem origin stands named from? ports =>
    exact List.forall_mem_map.mpr fun port _ => .other (Access.not_precedesId_ruleLead _ port _)

theorem Quoting.lone {ls : List Layout} (quoting : Quoting settings g name p ls) :
    ∀ l ∈ ls, l.Lone := by
  obtain ⟨layouts, embeds, rfl⟩ := quoting.embeds
  refine List.forall_mem_append.mpr ⟨fun l hl => ?_, List.forall_mem_singleton.mpr .own⟩
  obtain ⟨f, hf, hl⟩ := List.mem_flatMap.mp hl
  exact (embeds f hf).lone l hl

/-! ## 5. What a program text registers -/

section Registered

variable (h : parts settings g name = .ok p) (stays : PolicyStays settings g)
include h stays

/-- A line of a program registers what its first literal does, if the managed policy stays in its
    literal. -/
theorem registered_of_mem : ∀ t ∈ programTexts settings name p,
    registered t = (registration? t).toList := by
  obtain ⟨ls, quoting, sound⟩ := exists_sound h stays
  exact quoting.lines.registered sound quoting.lone

/-- **The ids of the text are those on its lines.** -/
theorem sourceIds_program :
    sourceIds (program settings.stackClass name p.fragments) =
      (programTexts settings name p).filterMap constructId? := by
  have ids : ∀ t ∈ programTexts settings name p,
      (registered t).map Prod.snd = (constructId? t).toList := by
    intro t ht
    rw [registered_of_mem h stays t ht, registration?]
    cases hid : constructId? t with
    | none =>
      rw [instantiated?_of_constructId? hid]
      rfl
    | some id =>
      obtain ⟨called, hcalled⟩ := exists_instantiated? hid
      rw [hcalled]
      rfl
  rw [sourceIds, sourceLines_program h stays, List.flatMap_append, List.map_append, List.map_flatMap,
    List.flatMap_congr ids, ← List.filterMap_eq_flatMap_toList]
  exact List.append_nil _

/-- **The lines of the text that instantiate a class** are those that do under their first
    literal. -/
theorem sourceInstances_program (called : String) :
    sourceInstances called (program settings.stackClass name p.fragments) =
      (programTexts settings name p).filter fun t => instantiated? t == some called := by
  have lines : ∀ t ∈ programTexts settings name p,
      ((registered t).filter fun x => x.1 == called).map (fun _ => t) =
        [t].filter fun t => instantiated? t == some called := by
    intro t ht
    rw [registered_of_mem h stays t ht, registration?]
    cases hcalled : instantiated? t with
    | none => simp [hcalled]
    | some other =>
      cases hid : constructId? t with
      | none =>
        rw [instantiated?_of_constructId? hid] at hcalled
        cases hcalled
      | some id =>
        by_cases same : other = called <;> simp [hcalled, same]
  rw [sourceInstances, sourceLines_program h stays, List.flatMap_append, List.flatMap_congr lines,
    ← List.filter_flatMap, List.flatMap_singleton']
  exact List.append_nil _

end Registered

end Stack

end InfraDiagram
