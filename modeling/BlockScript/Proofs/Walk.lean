import BlockScript.Proofs.Spelling

/-!
# The walk of a listing

A walk over a graph writes the trees that the graph holds: one that has not been at the blocks of a
held tree writes the text of the tree, enters each of its blocks but the shadows once, and remarks
on nothing (`Listing.Writes`). This holds of values (`Listing.value_writes`) and of chains of
statements (`Listing.body_writes`).
-/

namespace BlockScript

variable {catalog : Catalog} {target : TargetKind} {symbols : Symbols}

/-! ### Walks -/

namespace Listing

/-- The work writes a result, enters these blocks in this order and remarks on nothing, provided
that the walk has not been at them. -/
def Writes {β : Type} (work : Writer β) (ids : List BlockId) (result : β) : Prop :=
  ∀ w : Walk, (w.visited ++ ids).Nodup →
    work.run w = (result, { w with visited := w.visited ++ ids })

namespace Writes

variable {β γ : Type} {work : Writer β} {ids more : List BlockId} {result : β}

theorem pure (result : β) : Writes (Pure.pure result) [] result := by
  intro w _
  change (result, w) = (result, { w with visited := w.visited ++ [] })
  rw [List.append_nil]

theorem bind {next : β → Writer γ} {final : γ} (h : Writes work ids result)
    (hnext : Writes (next result) more final) : Writes (work >>= next) (ids ++ more) final := by
  intro w hw
  rw [← List.append_assoc] at hw
  have hfirst := h w (List.nodup_append.1 hw).1
  have hsecond := hnext { w with visited := w.visited ++ ids } hw
  rw [StateT.run_bind, hfirst, ← List.append_assoc]
  exact hsecond

/-- A block is entered. -/
theorem enter {target : Target} {id : BlockId} {b : Block}
    (hb : target.blocks.find? id = some b) : Writes (enter target id) [id] (.first b) := by
  intro w hw
  have hnew : w.visited.contains id = false := by
    have hmem := (List.nodup_append.1 hw).2.2
    rw [List.contains_eq_mem, decide_eq_false_iff_not]
    intro h
    exact hmem id h id (by simp) rfl
  simp only [Listing.enter, hb, StateT.run_bind, StateT.run_get]
  change StateT.run (if w.visited.contains id = true then _ else _) w = _
  rw [hnew]
  rfl

end Writes

/-! ### Slots -/

variable {t : Target} {speak : Speak} {slot : Slot} {constant : Option Literal}
  {value shadow : Chain BlockId} {b : Block} {node : Node} {s : Setting}

/-- Whoever writes the blocks of a tree writes its text. -/
def Speaks (catalog : Catalog) (symbols : Symbols) (speak : Speak) (c : Chain BlockId) : Prop :=
  ∀ id ∈ c.start, Writes (speak id) c.entered (c.speech catalog symbols)

theorem computed_writes (hslot : slot.Shows constant value shadow)
    (hvalue : Speaks catalog symbols speak value) :
    Writes (computed speak (some slot)) value.entered (value.speech catalog symbols) := by
  unfold computed
  rw [Option.bind_some, hslot.value]
  cases value with
  | nil => exact .pure ""
  | cons id node slots rest => exact hvalue id rfl

theorem operand_writes (hslot : slot.Shows constant value shadow)
    (hvalue : Speaks catalog symbols speak value) :
    Writes (operand speak (some slot)) value.entered
      (Literal.operandText constant (value.speech catalog symbols)) := by
  have h := computed_writes hslot hvalue
  unfold operand
  rw [← List.append_nil value.entered]
  refine h.bind ?_
  unfold Literal.operandText
  rw [Option.bind_some, hslot.constant]
  cases (value.speech catalog symbols).isEmpty with
  | false => exact .pure _
  | true => cases constant <;> exact .pure _

theorem truthOperand_writes (hslot : slot.Shows constant value shadow)
    (hvalue : Speaks catalog symbols speak value) :
    Writes (truthOperand speak (some slot)) value.entered
      (Text.orElse (value.speech catalog symbols) "false") := by
  unfold truthOperand
  rw [← List.append_nil value.entered]
  exact (computed_writes hslot hvalue).bind (.pure _)

theorem constant_eq (hslot : slot.Shows constant value shadow) (fallback : String) :
    Listing.constant (some slot) fallback = Literal.textOr constant fallback := by
  have hliteral : (some slot).bind Slot.literal? = constant := hslot.constant
  unfold Listing.constant Literal.textOr
  cases constant <;> simp only [hliteral]

theorem menuChoice_eq (hslot : slot.Shows constant value shadow)
    (hshadow : shadow.Held ⟨t.blocks, symbols⟩ s) :
    menuChoice t slot = shadow.choice symbols := by
  unfold menuChoice
  rw [hslot.shadow]
  cases shadow with
  | nil => rfl
  | cons id node slots rest =>
    obtain ⟨b, hb, hsaid, -⟩ := hshadow
    have hfields : node.fieldDict? symbols = some b.fields := hsaid.fields
    have hfind : t.blocks.find? id = some b := hb
    cases hhead : b.fields.values.head? <;>
      simp only [Chain.start, Chain.choice, hfields, Option.bind_some, hfind, hhead]

/-- What is written for a menu is its choice, or the expression above it. -/
theorem menuText_writes (fallback : String) (hslot : slot.Shows constant value shadow)
    (hvalue : Speaks catalog symbols speak value)
    (hshadow : shadow.Held ⟨t.blocks, symbols⟩ s) (hne : shadow ≠ .nil) :
    Writes (menuText t speak (some slot) fallback) value.entered
      (if (value.speech catalog symbols).isEmpty then
        Token.format (Text.orElse (shadow.choice symbols) (Literal.textOr constant fallback))
      else marked (value.speech catalog symbols)) := by
  have hrest : Writes (if !(value.speech catalog symbols).isEmpty then
        Pure.pure (marked (value.speech catalog symbols))
      else Pure.pure (Token.format (Text.orElse (menuChoice t slot)
        (Listing.constant (some slot) fallback))) : Writer String) []
      (if (value.speech catalog symbols).isEmpty then
        Token.format (Text.orElse (shadow.choice symbols) (Literal.textOr constant fallback))
      else marked (value.speech catalog symbols)) := by
    rw [constant_eq hslot, menuChoice_eq hslot hshadow]
    cases (value.speech catalog symbols).isEmpty <;> exact .pure _
  have hcomputed := computed_writes hslot hvalue
  rw [← List.append_nil value.entered]
  unfold computed at hcomputed
  unfold menuText
  cases slot with
  | covered id fallback => exact hcomputed.bind hrest
  | shadow id => exact hcomputed.bind hrest
  | literal literal =>
    cases shadow with
    | nil => exact absurd rfl hne
    | cons => cases hslot.shadow
  | block id =>
    cases shadow with
    | nil => exact absurd rfl hne
    | cons => cases hslot.shadow

/-- A slot is written as it spells. -/
theorem inputText_writes {spec : InputSpec} (site : Site)
    (hfind : b.inputs.find? spec.name = some slot) (hslot : slot.Shows constant value shadow)
    (hvalue : Speaks catalog symbols speak value)
    (hshadow : shadow.Held ⟨t.blocks, symbols⟩ s) {compares : Bool}
    (hadmits : spec.Admits compares constant value shadow) :
    Writes (inputText t speak site b spec) value.entered
      (spec.spell site constant (value.speech catalog symbols) (shadow.choice symbols)) := by
  have hcomputed := computed_writes hslot hvalue
  -- constants are written in the same way for every kind but conditions and menus
  have hliteral : ∀ kind, Writes (do
      let expression ← computed speak (some slot)
      if expression.isEmpty then
        Pure.pure (constantText kind (Listing.constant (some slot) spec.defaultText)
          spec.defaultText)
      else if site = .call && kind != .text then Pure.pure expression
      else Pure.pure (marked expression)) value.entered
      (if (value.speech catalog symbols).isEmpty then
        constantText kind (Literal.textOr constant spec.defaultText) spec.defaultText
      else if site = .call && kind != .text then value.speech catalog symbols
      else marked (value.speech catalog symbols)) := by
    intro kind
    rw [← List.append_nil value.entered]
    refine hcomputed.bind ?_
    rw [constant_eq hslot]
    split
    · exact .pure _
    · split <;> exact .pure _
  unfold inputText InputSpec.spell
  simp only [hfind]
  cases hkind : spec.kind with
  | menu =>
    refine menuText_writes _ hslot hvalue hshadow ?_
    simp only [InputSpec.Admits, hkind] at hadmits
    obtain ⟨-, tag, opcode, field, -, rfl, -⟩ := hadmits
    exact nofun
  | boolean =>
    rw [← List.append_nil value.entered]
    exact hcomputed.bind (.pure _)
  | text => exact hliteral .text
  | number => exact hliteral .number
  | integer => exact hliteral .integer
  | angle => exact hliteral .angle
  | color => exact hliteral .color

/-! ### Arguments -/

theorem putAt_last {position : Nat} (text : String) {args : List (Nat × String)}
    (h : ∀ entry ∈ args, entry.1 < position) :
    putAt position text args = args ++ [(position, text)] := by
  induction args with
  | nil => rfl
  | cons entry args ih =>
    have hlt := h entry List.mem_cons_self
    rw [putAt, if_neg (by omega), if_neg (by omega),
      ih fun e he ↦ h e (List.mem_cons_of_mem _ he), List.cons_append]

/-- The arguments so far are these texts, at the first positions. -/
structure Placed (args : List (Nat × String)) (texts : List String) : Prop where
  content : args.map Prod.snd = texts
  before : ∀ entry ∈ args, entry.1 < texts.length

theorem Placed.putAt {args : List (Nat × String)} {texts : List String} (h : Placed args texts)
    (text : String) : Placed (putAt texts.length text args) (texts ++ [text]) := by
  rw [putAt_last text h.before]
  refine ⟨by simp [h.content], fun entry hentry ↦ ?_⟩
  rw [List.length_append, List.length_singleton]
  rcases List.mem_append.1 hentry with hentry | hentry
  · have := h.before entry hentry
    omega
  · rw [List.mem_singleton.1 hentry]
    omega

theorem fieldText_eq (hsaid : b.Says symbols node s) (spec : FieldSpec) :
    fieldText b spec =
      Token.format ((node.fieldText? symbols spec.name).getD (spec.default?.getD "")) := by
  simp [fieldText, Block.fieldText?, Node.fieldText?, hsaid.fields]

/-- Fields are written one after the other. -/
theorem Placed.fields (b : Block) : ∀ {specs : List FieldSpec} {args : List (Nat × String)}
    {texts : List String}, Placed args texts →
    specs.map (·.source.position?) = (List.range' texts.length specs.length).map some →
      Placed (specs.foldl (putField b) args) (texts ++ specs.map (fieldText b))
  | [], _, _, h, _ => by simpa using h
  | spec :: specs, args, texts, h, hpositions => by
    simp only [List.map_cons, List.length_cons, List.range'_succ, List.cons.injEq] at hpositions
    have hput : putField b args spec = Listing.putAt texts.length (fieldText b spec) args := by
      rw [putField, hpositions.1]
    have htail : specs.map (·.source.position?) =
        (List.range' (texts ++ [fieldText b spec]).length specs.length).map some := by
      rw [List.length_append, List.length_singleton]
      exact hpositions.2
    have hrest := (h.putAt (fieldText b spec)).fields b htail
    rw [List.foldl_cons, hput]
    simpa using hrest

theorem fieldTexts_eq (hsaid : b.Says symbols node s) (specs : List FieldSpec) :
    specs.map (fieldText b) = node.fieldTexts symbols specs :=
  List.map_congr_left fun spec _ ↦ fieldText_eq hsaid spec

/-- One input of a command at its position. -/
theorem Placed.inputs (site : Site) {compares : Bool} {owner : BlockId} :
    ∀ {specs : List InputSpec} {slots : Slots BlockId} {args : List (Nat × String)}
      {texts : List String}, Placed args texts →
    specs.map (·.source.position?) = (List.range' texts.length specs.length).map some →
    slots.Fill catalog target compares specs [] →
    slots.Held ⟨t.blocks, symbols⟩ owner b.inputs →
    slots.EachValue (Speaks catalog symbols speak) →
      ∃ placed, Writes (specs.foldlM (fun args spec ↦ match spec.source.position? with
        | some i => return Listing.putAt i (← inputText t speak site b spec) args
        | none => return args) args) slots.entered placed ∧
        Placed placed (texts ++ slots.texts catalog symbols site specs)
  | [], .nil, args, texts, h, _, _, _, _ => ⟨args, .pure args, by simpa [Slots.texts] using h⟩
  | spec :: specs, .cons input constant value shadow rest, args, texts, h, hpositions, hfill, hheld,
      hspeaks => by
    -- the inputs come in the order of their positions, so the next text goes to the end
    simp only [List.map_cons, List.length_cons, List.range'_succ, List.cons.injEq] at hpositions
    obtain ⟨⟨rfl, hadmits⟩, -, hfill⟩ := hfill
    obtain ⟨⟨slot, hfind, hslot⟩, -, hshadow, hheld⟩ := hheld
    obtain ⟨hvalue, hspeaks⟩ := hspeaks
    have hwrites := inputText_writes site hfind hslot hvalue hshadow hadmits
    generalize htext : spec.spell site constant (value.speech catalog symbols)
      (shadow.choice symbols) = text at hwrites
    have htail : specs.map (·.source.position?) =
        (List.range' (texts ++ [text]).length specs.length).map some := by
      rw [List.length_append, List.length_singleton]
      exact hpositions.2
    obtain ⟨placed, hrest, hplaced⟩ := (h.putAt text).inputs site htail hfill hheld hspeaks
    refine ⟨placed, ?_, by simpa [Slots.texts, htext] using hplaced⟩
    rw [List.foldlM_cons, hpositions.1]
    refine Writes.bind ?_ hrest
    rw [← List.append_nil value.entered]
    exact hwrites.bind (.pure _)
  | _ :: _, .nil, _, _, _, _, h, _, _ => h.elim
  | [], .cons .., _, _, _, _, ⟨⟨_, _, _, hmem⟩, _⟩, _, _ => absurd hmem List.not_mem_nil

/-- The positions of fields and inputs. -/
theorem positions_eq {c : Command} (hc : c.IsRegular) :
    c.fields.map (·.source.position?) = (List.range' 0 c.fields.length).map some ∧
      c.inputs.map (·.source.position?) =
        (List.range' c.fields.length c.inputs.length).map some := by
  have h := hc.ordered
  simp only [Command.sources, List.map_append, List.map_map, List.length_append, List.length_map,
    List.range_eq_range', ← List.range'_append_1, Nat.zero_add] at h
  exact List.append_inj h (by simp)

/-- The arguments of a command are its fields and its inputs in their order. -/
theorem arguments_writes {c : Command} (hc : c.IsRegular) (site : Site) {compares : Bool}
    {owner : BlockId} {slots : Slots BlockId} (hsaid : b.Says symbols node s)
    (hfill : slots.Fill catalog target compares c.inputs [])
    (hrows : ∀ text ∈ slots.texts catalog symbols site c.inputs, IsRow text.toList)
    (hheld : slots.Held ⟨t.blocks, symbols⟩ owner b.inputs)
    (hspeaks : slots.EachValue (Speaks catalog symbols speak)) :
    Writes (arguments t speak site c b) slots.entered
      (node.fieldTexts symbols c.fields ++ slots.texts catalog symbols site c.inputs) := by
  obtain ⟨hfields, hinputs⟩ := positions_eq hc
  have hempty : Placed [] [] := ⟨rfl, nofun⟩
  have hplaced := hempty.fields b hfields
  rw [List.nil_append, fieldTexts_eq hsaid] at hplaced
  have hlength : (node.fieldTexts symbols c.fields).length = c.fields.length := by
    simp [Node.fieldTexts]
  rw [← hlength] at hinputs
  obtain ⟨placed, hwrites, hfinal⟩ := hplaced.inputs site hinputs hfill hheld hspeaks
  unfold arguments
  rw [← List.append_nil slots.entered]
  refine hwrites.bind ?_
  -- nothing that is written is empty
  have htexts : argumentTexts placed =
      node.fieldTexts symbols c.fields ++ slots.texts catalog symbols site c.inputs := by
    rw [argumentTexts, hfinal.content, List.filter_eq_self]
    intro text htext
    rcases List.mem_append.1 htext with htext | htext
    · obtain ⟨spec, -, rfl⟩ := List.mem_map.1 htext
      simpa using Token.format_ne_empty _
    · have hne := (hrows text htext).ne_nil
      simpa using hne
  rw [htexts]
  exact .pure _

/-! ### Expressions -/

theorem blockExpression_comparison {relation : Relation}
    (h : Opcode.relation? b.opcode = some relation) :
    blockExpression catalog t speak b = comparison speak relation.symbol b := by
  unfold blockExpression
  unfold Opcode.relation? at h
  split at h
  · next hgreater =>
    cases h
    rw [if_pos hgreater]
    rfl
  · next hgreater =>
    rw [if_neg hgreater]
    split at h
    · next hless =>
      cases h
      rw [if_pos hless]
      rfl
    · next hless =>
      rw [if_neg hless]
      split at h
      · next hequals =>
        cases h
        rw [if_pos hequals]
        rfl
      · cases h

theorem blockExpression_call (h : Opcode.relation? b.opcode = none) :
    blockExpression catalog t speak b =
      if b.opcode == Opcode.and then connective speak "and" b
      else if b.opcode == Opcode.or then connective speak "or" b
      else if b.opcode == Opcode.not then do
        return "not(" ++ (← truthOperand speak (b.inputs.find? "OPERAND")) ++ ")"
      else if b.opcode == Opcode.argument then return "arg(" ++ argumentName b ++ ")"
      else if b.opcode == Opcode.booleanArgument then
        return "arg_bool(" ++ argumentName b ++ ")"
      else callText catalog t speak b := by
  have hnot : Opcode.isComparison b.opcode = false := by
    rw [← Opcode.relation?_isSome, h]
    rfl
  simp only [Opcode.isComparison, Bool.or_eq_false_iff] at hnot
  unfold blockExpression
  simp only [hnot, Bool.false_eq_true, if_false]

theorem comparison_writes {relation : Relation} {owner : BlockId} {first second : Option Literal}
    {left right : Chain BlockId}
    (hheld : (Slots.cons "OPERAND1" first left .nil (.cons "OPERAND2" second right .nil .nil)).Held
      ⟨t.blocks, symbols⟩ owner b.inputs)
    (hleft : Speaks catalog symbols speak left) (hright : Speaks catalog symbols speak right)
    (hrow : IsRow (Comparison.write (Literal.operandText first (left.speech catalog symbols))
      relation (Literal.operandText second (right.speech catalog symbols))).toList) :
    Writes (comparison speak relation.symbol b) (left.entered ++ right.entered)
      (Comparison.write (Literal.operandText first (left.speech catalog symbols)) relation
        (Literal.operandText second (right.speech catalog symbols))) := by
  obtain ⟨⟨slot, hfind, hslot⟩, -, -, ⟨slot', hfind', hslot'⟩, -⟩ := hheld
  unfold comparison
  rw [hfind, hfind']
  refine (operand_writes hslot hleft).bind ?_
  rw [← List.append_nil right.entered]
  refine (operand_writes hslot' hright).bind ?_
  have htrim : Text.trim (Comparison.write (Literal.operandText first (left.speech catalog symbols))
      relation (Literal.operandText second (right.speech catalog symbols))) = _ :=
    congrArg String.ofList hrow.trim
  rw [String.ofList_toList] at htrim
  exact htrim ▸ .pure _

theorem connective_writes {word opcode : String} {compares : Bool} {owner : BlockId}
    {slots : Slots BlockId}
    (hfill : slots.Fill catalog target compares (Command.connective word opcode).inputs [])
    (hheld : slots.Held ⟨t.blocks, symbols⟩ owner b.inputs)
    (hspeaks : slots.EachValue (Speaks catalog symbols speak)) :
    Writes (connective speak word b) slots.entered (Call.write word
      (slots.texts catalog symbols .call (Command.connective word opcode).inputs)) := by
  match slots, hfill with
  | .cons _ first left under (.cons _ second right under' .nil), ⟨⟨rfl, _⟩, _, ⟨rfl, _⟩, _⟩ =>
    obtain ⟨⟨slot, hfind, hslot⟩, -, -, ⟨slot', hfind', hslot'⟩, -⟩ := hheld
    obtain ⟨hleft, hright, -⟩ := hspeaks
    have hfind : b.inputs.find? "OPERAND1" = some slot := hfind
    have hfind' : b.inputs.find? "OPERAND2" = some slot' := hfind'
    unfold connective
    rw [hfind, hfind']
    refine (truthOperand_writes hslot hleft).bind ?_
    refine (truthOperand_writes hslot' hright).bind ?_
    have htext : Call.write word (Slots.texts catalog symbols .call
        (Command.connective word opcode).inputs
        (.cons "OPERAND1" first left under (.cons "OPERAND2" second right under' .nil))) =
        word ++ "(" ++ Text.orElse (left.speech catalog symbols) "false" ++ ", " ++
          Text.orElse (right.speech catalog symbols) "false" ++ ")" := by
      simp [Call.write, Text.join, Command.connective, Command.conditionInput, Slots.texts,
        InputSpec.spell, InputSpec.defaultText, Text.orElse, String.append_assoc]
    exact htext ▸ Writes.pure _

theorem negation_writes {compares : Bool} {owner : BlockId} {slots : Slots BlockId}
    (hfill : slots.Fill catalog target compares Command.negation.inputs [])
    (hheld : slots.Held ⟨t.blocks, symbols⟩ owner b.inputs)
    (hspeaks : slots.EachValue (Speaks catalog symbols speak)) :
    Writes (do return "not(" ++ (← truthOperand speak (b.inputs.find? "OPERAND")) ++ ")")
      slots.entered
      (Call.write "not" (slots.texts catalog symbols .call Command.negation.inputs)) := by
  match slots, hfill with
  | .cons _ constant value under .nil, ⟨⟨rfl, _⟩, _⟩ =>
    obtain ⟨⟨slot, hfind, hslot⟩, -⟩ := hheld
    have hfind : b.inputs.find? "OPERAND" = some slot := hfind
    rw [hfind]
    refine (truthOperand_writes hslot hspeaks.1).bind ?_
    have htext : Call.write "not" (Slots.texts catalog symbols .call Command.negation.inputs
        (.cons "OPERAND" constant value under .nil)) =
        "not(" ++ Text.orElse (value.speech catalog symbols) "false" ++ ")" := by
      have hopen : "not(" = "not" ++ "(" := rfl
      simp [Call.write, Text.join, Command.negation, Command.conditionInput, Slots.texts,
        InputSpec.spell, InputSpec.defaultText, Text.orElse, hopen]
    exact htext ▸ Writes.pure _

theorem argumentName_eq (hsaid : b.Says symbols node s) :
    Listing.argumentName b = node.argumentName symbols := by
  simp [Listing.argumentName, Node.argumentName, Block.fieldText?, Node.fieldText?, hsaid.fields]

/-- The block of a command is written as a call of it. -/
theorem callText_writes {c : Command} (hc : c.IsRegular)
    (hfor : catalog.expressionFor? b.opcode = some c) {compares : Bool} {owner : BlockId}
    {slots : Slots BlockId} (hsaid : b.Says symbols node s)
    (hfill : slots.Fill catalog target compares c.inputs [])
    (hrows : ∀ text ∈ slots.texts catalog symbols .call c.inputs, IsRow text.toList)
    (hheld : slots.Held ⟨t.blocks, symbols⟩ owner b.inputs)
    (hspeaks : slots.EachValue (Speaks catalog symbols speak)) :
    Writes (callText catalog t speak b) slots.entered (Call.write c.name
      (node.fieldTexts symbols c.fields ++ slots.texts catalog symbols .call c.inputs)) := by
  unfold callText
  rw [hfor, ← List.append_nil slots.entered]
  exact (arguments_writes hc .call hsaid hfill hrows hheld hspeaks).bind (.pure _)

theorem callTexts_of_ne {c : Command} (hnode : node.Fits c) (hargument : c.opcode ≠ Opcode.argument)
    (hboolean : c.opcode ≠ Opcode.booleanArgument) (texts : List String) :
    node.callTexts symbols c texts = node.fieldTexts symbols c.fields ++ texts := by
  simp [Node.callTexts, hnode.opcode, hargument, hboolean]

theorem argument_writes {name opcode opening : String} {kind : CommandKind} {compares : Bool}
    {slots : Slots BlockId} (hopening : opening = name ++ "(")
    (hopcode : opcode = Opcode.argument ∨ opcode = Opcode.booleanArgument)
    (hnode : node.Fits (.argument name opcode kind))
    (hfill : slots.Fill catalog target compares (Command.argument name opcode kind).inputs [])
    (hsaid : b.Says symbols node s) :
    Writes (Pure.pure (opening ++ Listing.argumentName b ++ ")")) slots.entered
      (Call.write name (node.callTexts symbols (.argument name opcode kind)
        (slots.texts catalog symbols .call (Command.argument name opcode kind).inputs))) := by
  match slots, hfill with
  | .nil, _ =>
    have hcase : (node.opcode == Opcode.argument || node.opcode == Opcode.booleanArgument) =
      true := by
      rw [hnode.opcode]
      rcases hopcode with rfl | rfl <;> rfl
    have htext : Call.write name (node.callTexts symbols (.argument name opcode kind)
        (Slots.texts catalog symbols .call (Command.argument name opcode kind).inputs
          (Slots.nil : Slots BlockId))) = opening ++ Listing.argumentName b ++ ")" := by
      rw [hopening, Node.callTexts, if_pos hcase, argumentName_eq hsaid]
      simp [Call.write, Text.join]
    exact htext ▸ Writes.pure _

/-- The words of the grammar are written by hand, each as a call of its command, and all other
blocks as the catalog says. -/
theorem blockExpression_writes_call (hcat : catalog.IsRegular) {slots : Slots BlockId} {c : Command}
    (hc : c ∈ catalog.commands.values) (hkind : c.kind.isExpression = true) (hnode : node.Fits c)
    (hfill : slots.Fill catalog target false c.inputs [])
    (hrelation : Opcode.relation? node.opcode = none) (hsaid : b.Says symbols node s)
    (hheld : slots.Held ⟨t.blocks, symbols⟩ owner b.inputs)
    (hspeaks : slots.EachValue (Speaks catalog symbols speak)) :
    Writes (blockExpression catalog t speak b) slots.entered (Call.write c.name
      (node.callTexts symbols c (slots.texts catalog symbols .call c.inputs))) := by
  have hregular := hcat.regular c hc
  have hopcode : b.opcode = node.opcode := hsaid.opcode
  have hopcode? := hregular.opcode?_eq (CommandKind.makesBlock_of_isExpression hkind)
  have hfor : catalog.expressionFor? b.opcode = some c := by
    rw [hopcode, hnode.opcode]
    exact hcat.expressionFor? hc hopcode? hkind
  -- a command of the catalog for one of these blocks is the one of the grammar
  have hunique : ∀ d ∈ Catalog.essential, d.opcode? = some c.opcode → c = d := fun d hd hdo ↦
    hcat.eq_of_opcode hc (hcat.essential d hd) hopcode? hdo
  rw [blockExpression_call (hopcode ▸ hrelation), hopcode, hnode.opcode]
  by_cases hand : c.opcode = Opcode.and
  · obtain rfl := hunique (.connective "and" Opcode.and) (by decide) (by rw [hand]; rfl)
    rw [callTexts_of_ne hnode (by decide) (by decide)]
    exact connective_writes hfill hheld hspeaks
  by_cases hor : c.opcode = Opcode.or
  · obtain rfl := hunique (.connective "or" Opcode.or) (by decide) (by rw [hor]; rfl)
    rw [callTexts_of_ne hnode (by decide) (by decide)]
    exact connective_writes hfill hheld hspeaks
  by_cases hnot : c.opcode = Opcode.not
  · obtain rfl := hunique .negation (by decide) (by rw [hnot]; rfl)
    rw [callTexts_of_ne hnode (by decide) (by decide)]
    exact negation_writes hfill hheld hspeaks
  by_cases hargument : c.opcode = Opcode.argument
  · obtain rfl := hunique (.argument "arg" Opcode.argument .reporter) (by decide)
      (by rw [hargument]; rfl)
    exact argument_writes rfl (.inl rfl) hnode hfill hsaid
  by_cases hboolean : c.opcode = Opcode.booleanArgument
  · obtain rfl := hunique (.argument "arg_bool" Opcode.booleanArgument .boolean) (by decide)
      (by rw [hboolean]; rfl)
    exact argument_writes rfl (.inr rfl) hnode hfill hsaid
  have hrows : ∀ text ∈ slots.texts catalog symbols .call c.inputs, IsRow text.toList :=
    slots.texts_isRow .call hregular.inputs (hfill.each fun v hv ↦ hv.speech_isRow hcat)
  rw [callTexts_of_ne hnode hargument hboolean]
  simp only [beq_iff_eq, hand, hor, hnot, hargument, hboolean, if_false]
  exact callText_writes hregular hfor hsaid hfill hrows hheld hspeaks

/-- A block whose values are written is written as its tree. -/
theorem blockExpression_writes (hcat : catalog.IsRegular) {tag : BlockId} {slots : Slots BlockId}
    (hvalue : (Chain.cons tag node slots .nil).IsValue catalog target)
    (hsaid : b.Says symbols node s) (hheld : slots.Held ⟨t.blocks, symbols⟩ tag b.inputs)
    (hspeaks : slots.EachValue (Speaks catalog symbols speak)) :
    Writes (blockExpression catalog t speak b) slots.entered
      ((Chain.cons tag node slots .nil).speech catalog symbols) := by
  have hrow : IsRow ((Chain.cons tag node slots .nil).speech catalog symbols).toList :=
    hvalue.speech_isRow hcat nofun
  have hspelled : (Chain.cons tag node slots .nil).Spelled catalog symbols target :=
    hvalue.spelled hcat
  have hopcode : b.opcode = node.opcode := hsaid.opcode
  cases hspelled with
  | comparison hrelation hleft hright hfirst hsecond htext =>
    rw [blockExpression_comparison (hopcode ▸ hrelation)]
    rw [htext] at hrow ⊢
    have hwrites := comparison_writes hheld hspeaks.1 hspeaks.2.1 hrow
    simpa [Slots.entered] using hwrites
  | @call _ _ _ c hc hkind havailable hnode hfill hrelation htext =>
    rw [htext]
    exact blockExpression_writes_call hcat hc hkind hnode hfill hrelation hsaid hheld hspeaks

/-- The values in the slots of a held block are held below it, and their blocks are among those of
the slots. -/
theorem eachValue_below {g : Graph} {owner : BlockId} {inputs : Dict Slot}
    {p : Chain BlockId → Prop} : ∀ {slots : Slots BlockId}, slots.Held g owner inputs →
    slots.EachValue p → slots.EachValue fun v ↦
      p v ∧ v.Held g { parent := some owner } ∧ v.entered.Sublist slots.entered
  | .nil, _, _ => trivial
  | .cons .., ⟨_, hvalue, _, hrest⟩, ⟨hp, hothers⟩ => by
    refine ⟨⟨hp, hvalue, List.sublist_append_left ..⟩, (eachValue_below hrest hothers).mono ?_⟩
    rintro v ⟨hv, hheld, hsub⟩
    exact ⟨hv, hheld, hsub.trans (List.sublist_append_right ..)⟩

/-- The values in the slots of a held block are held. -/
theorem eachValue_held {g : Graph} {owner : BlockId} {inputs : Dict Slot} {size : Nat}
    {p : Chain BlockId → Prop} {slots : Slots BlockId} (hheld : slots.Held g owner inputs)
    (hsize : slots.entered.length ≤ size) (hp : slots.EachValue p) :
    slots.EachValue fun v ↦ p v ∧ (∃ s, v.Held g s) ∧ v.entered.length ≤ size := by
  refine (eachValue_below hheld hp).mono ?_
  rintro v ⟨hv, hheld, hsub⟩
  exact ⟨hv, ⟨_, hheld⟩, hsub.length_le.trans hsize⟩

theorem speaks_nil : Speaks catalog symbols speak .nil :=
  nofun

/-- **A walk writes a held value.** It enters the blocks of the value, in their order, and writes
the text of the tree. -/
theorem value_writes (hcat : catalog.IsRegular) {c : Chain BlockId}
    (hvalue : c.IsValue catalog target) (hne : c ≠ .nil) : ∀ (bound : Nat) (s : Setting),
    c.Held ⟨t.blocks, symbols⟩ s → c.entered.length ≤ bound →
      Speaks catalog symbols (expression catalog t bound) c := by
  refine hvalue.induction (motive := fun c ↦ ∀ (bound : Nat) (s : Setting),
    c.Held ⟨t.blocks, symbols⟩ s → c.entered.length ≤ bound →
      Speaks catalog symbols (expression catalog t bound) c) ?_ hne
  intro tag node slots hvalue hslots bound s hheld hbound id hid
  obtain rfl := Option.some.inj hid
  obtain ⟨b, hb, hsaid, -, -, hslotsHeld, -⟩ := hheld
  simp only [Chain.entered, List.append_nil, List.length_cons] at hbound ⊢
  match bound, hbound with
  | bound + 1, hbound =>
    have hspeaks : slots.EachValue (Speaks catalog symbols (expression catalog t bound)) := by
      refine (eachValue_held hslotsHeld (Nat.le_of_succ_le_succ hbound) hslots).mono ?_
      rintro v ⟨hv, ⟨s, hs⟩, hlen⟩
      by_cases hnil : v = .nil
      · exact hnil ▸ speaks_nil
      · exact hv hnil bound s hs hlen
    have hblock := blockExpression_writes hcat hvalue hsaid hslotsHeld hspeaks
    exact (Writes.enter hb).bind hblock

/-! ### Branches -/

/-- Whoever writes chains writes the lines of this one, at every depth. -/
def SpeaksChain (catalog : Catalog) (symbols : Symbols) (speakChain : SpeakChain)
    (c : Chain BlockId) : Prop :=
  ∀ depth, Writes (speakChain c.start depth) c.entered (c.lines catalog symbols depth)

variable {speakChain : SpeakChain}

/-- What the branches of a block are written from: the slots behind its inputs are its sub-chains,
and no other name stands for one. -/
structure HoldsBranches (t : Target) (symbols : Symbols) (b : Block) (owner : BlockId)
    (names : List String) (back : Slots BlockId) : Prop where
  held : back.Held ⟨t.blocks, symbols⟩ owner b.inputs
  filled : ∀ name ∈ names, (b.inputs.find? name).isSome → name ∈ back.names

theorem mem_of_mem_namesAfter {input name : String} {names : List String}
    (h : name ∈ namesAfter input names) : name ∈ names :=
  (List.dropWhile_sublist _).subset ((List.drop_sublist _ _).subset h)

/-- Sub-chains come in the order of their names. -/
theorem names_subset {compares : Bool} : ∀ {names : List String} {back : Slots BlockId},
    back.Fill catalog target compares [] names → ∀ name ∈ back.names, name ∈ names
  | _, .nil, _, _, h => absurd h List.not_mem_nil
  | _, .cons .., ⟨⟨_, _, _, hmem⟩, _, hrest⟩, name, h => by
    rcases List.mem_cons.1 h with rfl | h
    · exact hmem
    · exact mem_of_mem_namesAfter (names_subset hrest name h)

theorem bodies_lookup_of_notMem {name : String} (depth : Nat) : ∀ {slots : Slots BlockId},
    name ∉ slots.names → (slots.bodies catalog symbols depth).lookup name = none
  | .nil, _ => by simp [Slots.bodies]
  | .cons input _ _ _ rest, h => by
    rw [Slots.names, List.mem_cons, not_or] at h
    have hne : (name == input) = false := by simpa using h.1
    rw [Slots.bodies, List.lookup_cons, hne]
    exact bodies_lookup_of_notMem depth h.2

variable (catalog target t symbols b) in
/-- The sub-chains of a block, the one under the first name and those after it, which all have the
property. The first may be missing, and counts as empty then. -/
structure Branching (p : Chain BlockId → Prop) (compares : Bool) (owner : BlockId)
    (name : String) (names : List String) (back : Slots BlockId) (value : Chain BlockId)
    (rest : Slots BlockId) : Prop where
  start : (b.inputs.find? name).bind Slot.connected? = value.start
  first : p value
  entered : back.entered = value.entered ++ rest.entered
  fill : rest.Fill catalog target compares [] names
  holds : HoldsBranches t symbols b owner names rest
  each : rest.EachValue p
  lines : ∀ depth, ((back.bodies catalog symbols depth).lookup name).getD [] =
    value.lines catalog symbols depth
  others : ∀ depth, ∀ other ∈ names, (back.bodies catalog symbols depth).lookup other =
    (rest.bodies catalog symbols depth).lookup other

theorem branching_missing {p : Chain BlockId → Prop} {compares : Bool} {owner : BlockId}
    {name : String} {names : List String} (hname : name ∉ names) {back : Slots BlockId}
    (hrest : back.Fill catalog target compares [] names)
    (hholds : HoldsBranches t symbols b owner (name :: names) back)
    (hnil : p .nil) (heach : back.EachValue p) :
    Branching catalog target symbols t b p compares owner name names back .nil back := by
  have hnotMem : name ∉ back.names := fun h ↦ hname (names_subset hrest name h)
  have hfind : b.inputs.find? name = none := by
    rw [← Option.not_isSome_iff_eq_none]
    exact fun h ↦ hnotMem (hholds.filled name List.mem_cons_self h)
  refine ⟨by rw [hfind]; rfl, hnil, by simp [Chain.entered], hrest,
    ⟨hholds.held, fun other h ↦ hholds.filled other (List.mem_cons_of_mem _ h)⟩, heach,
    fun depth ↦ ?_, fun _ _ _ ↦ rfl⟩
  rw [bodies_lookup_of_notMem depth hnotMem]
  simp [Chain.lines]

theorem exists_branching {p : Chain BlockId → Prop} {compares : Bool} {owner : BlockId}
    {name : String} {names : List String} (hnodup : (name :: names).Nodup) {back : Slots BlockId}
    (hfill : back.Fill catalog target compares [] (name :: names))
    (hholds : HoldsBranches t symbols b owner (name :: names) back)
    (hnil : p .nil) (heach : back.EachValue p) :
    ∃ value rest,
      Branching catalog target symbols t b p compares owner name names back value rest := by
  obtain ⟨hname, -⟩ := List.nodup_cons.1 hnodup
  obtain ⟨value, rest, rfl, hrest⟩ := hfill.exists_first hname
  cases value with
  | nil => exact ⟨.nil, rest, branching_missing hname hrest hholds hnil heach⟩
  | cons id node slots below =>
    have hne : ∀ other ∈ names, other ≠ name := fun other hother heq ↦ hname (heq ▸ hother)
    obtain ⟨⟨⟨slot, hfind, hslot⟩, -, -, hheld⟩, hfilled⟩ := hholds
    refine ⟨_, rest, by rw [hfind]; exact hslot.value, heach.1, rfl, hrest,
      ⟨hheld, fun other hother hsome ↦ ?_⟩, heach.2,
      fun depth ↦ by simp [Slots.branch, Slots.append, Slots.bodies], fun depth other hother ↦ ?_⟩
    · have hin := hfilled other (List.mem_cons_of_mem _ hother) hsome
      exact (List.mem_cons.1 hin).resolve_left (hne other hother)
    · simp only [Slots.branch, Slots.append, Slots.bodies, List.lookup_cons,
        beq_eq_false_iff_ne.2 (hne other hother)]

/-- How the lines of sub-chains come about: those of one sub-chain after the other, with the word
for else between them. What is known of these steps is known of the lines of all sub-chains. -/
structure BranchSteps (catalog : Catalog) (symbols : Symbols) (b : Block) (depth : Nat)
    (p : Chain BlockId → Prop) (q : List String → List BlockId → List String → Prop) : Prop where
  missing : p .nil
  none : q [] [] []
  last : ∀ name value, (b.inputs.find? name).bind Slot.connected? = value.start → p value →
    q [name] value.entered (value.lines catalog symbols (depth + 1))
  more : ∀ name next names value ids lines,
    (b.inputs.find? name).bind Slot.connected? = value.start → p value →
    q (next :: names) ids lines → q (name :: next :: names) (value.entered ++ ids)
      (value.lines catalog symbols (depth + 1) ++
        indent depth ((catalog.keyword? .otherwise).getD "else") :: lines)

theorem BranchSteps.branchLines {depth : Nat} {p : Chain BlockId → Prop}
    {q : List String → List BlockId → List String → Prop}
    (h : BranchSteps catalog symbols b depth p q) {compares : Bool} {owner : BlockId}
    (bodies : List (String × List String)) :
    ∀ {names : List String} {back : Slots BlockId}, names.Nodup →
    back.Fill catalog target compares [] names → HoldsBranches t symbols b owner names back →
    back.EachValue p →
    (∀ name ∈ names, bodies.lookup name =
      (back.bodies catalog symbols (depth + 1)).lookup name) →
      q names back.entered (branchLines catalog bodies depth names)
  | [], .nil, _, _, _, _, _ => h.none
  | [], .cons .., _, ⟨⟨_, _, _, hmem⟩, _⟩, _, _, _ => absurd hmem List.not_mem_nil
  | [name], back, hnodup, hfill, hholds, heach, hbodies => by
    obtain ⟨value, rest, hb⟩ := exists_branching hnodup hfill hholds h.missing heach
    -- the last branch has no other word behind it
    obtain rfl := hb.fill.eq_nil
    rw [Listing.branchLines, hb.entered, hbodies name List.mem_cons_self, hb.lines, Slots.entered,
      List.append_nil]
    exact h.last name value hb.start hb.first
  | name :: next :: names, back, hnodup, hfill, hholds, heach, hbodies => by
    obtain ⟨value, rest, hb⟩ := exists_branching hnodup hfill hholds h.missing heach
    have htail := h.branchLines bodies (List.nodup_cons.1 hnodup).2 hb.fill hb.holds
      hb.each fun other hin ↦
        (hbodies other (List.mem_cons_of_mem _ hin)).trans (hb.others _ other hin)
    simp only [Listing.branchLines, hb.entered, hbodies name List.mem_cons_self, hb.lines]
    exact h.more name next names value _ _ hb.start hb.first htail

/-- Sub-chains are written one after the other. -/
theorem branchSteps_writes (b : Block) (depth : Nat)
    (hnil : SpeaksChain catalog symbols speakChain .nil) :
    BranchSteps catalog symbols b depth (SpeaksChain catalog symbols speakChain)
      fun names ids lines ↦ Writes (branches catalog speakChain b depth names) ids lines where
  missing := hnil
  none := .pure _
  last name value hstart hspeaks := by
    rw [branches, hstart]
    exact hspeaks (depth + 1)
  more name next names value ids lines hstart hspeaks hrest := by
    simp only [branches, hstart]
    refine (hspeaks (depth + 1)).bind ?_
    rw [← List.append_nil ids]
    exact hrest.bind (.pure _)

/-! ### Statements -/

theorem indent_ne_empty (depth : Nat) {text : String} (h : text ≠ "") : indent depth text ≠ "" := by
  intro hempty
  have hlist := congrArg String.toList hempty
  simp [indent, h] at hlist

theorem commandLine_ne_empty {name : String} (h : name ≠ "") (words : List String) :
    commandLine name words ≠ "" := by
  obtain ⟨rest, hrest⟩ := Text.exists_join_cons name words
  rw [commandLine, hrest]
  simp [h]

/-- The sub-chains of a command are among the branches that it opens. -/
theorem stackNames_sublist (hcat : catalog.IsRegular) {c : Command}
    (hc : c ∈ catalog.commands.values) (hk : c.kind = .nesting) :
    c.stackNames.Sublist (Branches.ofCommand c).pending := by
  obtain rfl | rfl | ⟨-, name, hname, hbranches⟩ := hcat.nesting_cases hc hk
  · decide
  · decide
  · simp [hbranches, hname, Branches.pending]

/-- Inputs and sub-chains of a command have different names. -/
theorem branchNames_nodup (hcat : catalog.IsRegular) {c : Command}
    (hc : c ∈ catalog.commands.values) :
    (c.inputs.map (·.name) ++ c.branchNames).Nodup := by
  have hnodup := hcat.distinct c hc
  unfold Command.slotNames at hnodup
  unfold Command.branchNames
  split
  · next hk =>
    rw [if_pos hk] at hnodup
    exact hnodup.sublist ((stackNames_sublist hcat hc hk).append_left _)
  · next hk => rwa [if_neg hk] at hnodup

/-- A sub-chain goes by a name that no input has. -/
theorem notMem_names (hcat : catalog.IsRegular) {c : Command} {front back : Slots BlockId}
    (hmakes : c.Makes catalog target node front back) {name : String} (h : name ∈ c.branchNames) :
    name ∉ front.names := by
  intro hin
  rw [hmakes.inputs.names_eq] at hin
  exact (List.nodup_append.1 (branchNames_nodup hcat hmakes.mem)).2.2 name hin name h rfl

/-- What is known of the steps is known of the lines below a held block. -/
theorem BranchSteps.below {depth : Nat} {p : Chain BlockId → Prop}
    {q : List String → List BlockId → List String → Prop}
    (h : BranchSteps catalog symbols b depth p q) (hcat : catalog.IsRegular) {c : Command}
    (hk : c.kind = .nesting) {front back : Slots BlockId}
    (hmakes : c.Makes catalog target node front back) {owner : BlockId}
    (hnames : ∀ name, name ∈ (front.append back).names ↔ (b.inputs.find? name).isSome)
    (hheld : back.Held ⟨t.blocks, symbols⟩ owner b.inputs) (heach : back.EachValue p) :
    q c.stackNames back.entered (Listing.branchLines catalog
      ((front.append back).bodies catalog symbols (depth + 1)) depth c.stackNames) := by
  have hstack := (List.nodup_append.1 (branchNames_nodup hcat hmakes.mem)).2.1
  have hback := hmakes.branches
  have hnot : ∀ name ∈ c.branchNames, name ∉ front.names := fun _ ↦ notMem_names hcat hmakes
  rw [Command.branchNames, if_pos hk] at hstack hback hnot
  have hholds : HoldsBranches t symbols b owner c.stackNames back := by
    refine ⟨hheld, fun name hname hsome ↦ ?_⟩
    have hin := (hnames name).2 hsome
    rw [Slots.names_append, List.mem_append] at hin
    exact hin.resolve_left (hnot name hname)
  refine h.branchLines _ hstack hback hholds heach fun name hname ↦ ?_
  rw [Slots.bodies_append, List.lookup_append, bodies_lookup_of_notMem _ (hnot name hname),
    Option.none_or]

/-- The block of a statement or a hat is written as a line, whatever is written below it. -/
theorem heading_writes (hcat : catalog.IsRegular) {c : Command} (hk : c.kind.isHeader = true)
    {front back : Slots BlockId} (hmakes : c.Makes catalog target node front back)
    (hsaid : b.Says symbols node s) {owner : BlockId}
    (hheld : front.Held ⟨t.blocks, symbols⟩ owner b.inputs)
    (hspeaks : front.EachValue (Speaks catalog symbols speak)) {depth : Nat}
    {ids : List BlockId} {lines : List String} (hempty : c.kind ≠ .nesting → ids = [])
    (hbelow : c.kind = .nesting →
      Writes (branches catalog speakChain b depth c.stackNames) ids lines) :
    Writes (statement catalog t speak speakChain b depth) (front.entered ++ ids)
      (indent depth (commandLine c.header.name
        (node.fieldTexts symbols c.fields ++ front.texts catalog symbols .line c.inputs)) ::
      if c.kind = .nesting then lines ++ [indent depth ((catalog.keyword? .finish).getD "end")]
      else []) := by
  have hmem := hmakes.mem
  obtain ⟨hblock, hexpr, hdefine, hcall⟩ := CommandKind.isHeader_facts hk
  obtain ⟨hheader, hfields, hinputs, hkind⟩ := hcat.header_eq hmem hblock
  obtain ⟨hne, hne'⟩ := hcat.opcode_ne hmem hblock hdefine
  have hopcode : b.opcode = c.opcode := hsaid.opcode.trans hmakes.fits.opcode
  have hrows : ∀ text ∈ front.texts catalog symbols .line c.inputs, IsRow text.toList :=
    front.texts_isRow .line (hcat.regular c hmem).inputs
      (hmakes.inputs.each fun v hv ↦ hv.speech_isRow hcat)
  have hargs := arguments_writes (hcat.regular _ hheader) .line hsaid (hinputs ▸ hmakes.inputs)
    (hinputs ▸ hrows) hheld hspeaks
  rw [hfields, hinputs] at hargs
  have hunfold : (b.opcode == Opcode.definition) = false ∧ (b.opcode == Opcode.call) = false := by
    simp [hopcode, hne, hne' hcall]
  simp only [statement, hunfold, Bool.false_eq_true, if_false, hkind,
    hcat.headerCommand? hmem hblock hexpr hopcode, hcat.stackNames hmem hblock _ hopcode]
  refine hargs.bind ?_
  by_cases hnest : c.kind = .nesting
  · simp only [hnest, bne_self_eq_false, Bool.false_eq_true, if_false, if_true]
    rw [← List.append_nil ids]
    exact (hbelow hnest).bind (.pure _)
  · simp only [bne_iff_ne, ne_eq, hnest, not_false_eq_true, if_true, if_false, hempty hnest]
    exact .pure _

theorem eq_nil_of_makes {c : Command} (hk : c.kind ≠ .nesting) {front back : Slots BlockId}
    (hmakes : c.Makes catalog target node front back) : back = .nil := by
  have hback := hmakes.branches
  rw [Command.branchNames, if_neg hk] at hback
  exact hback.eq_nil

/-- The block of a statement or a hat is written as a line, with its sub-chains below it. -/
theorem header_writes (hcat : catalog.IsRegular) {c : Command} (hk : c.kind.isHeader = true)
    {front back : Slots BlockId} (hmakes : c.Makes catalog target node front back)
    (hsaid : b.Says symbols node s) {owner : BlockId}
    (hnames : ∀ name, name ∈ (front.append back).names ↔ (b.inputs.find? name).isSome)
    (hheld : (front.append back).Held ⟨t.blocks, symbols⟩ owner b.inputs)
    (hspeaks : front.EachValue (Speaks catalog symbols speak))
    (hchains : back.EachValue (SpeaksChain catalog symbols speakChain))
    (hnil : SpeaksChain catalog symbols speakChain .nil) (depth : Nat) :
    Writes (statement catalog t speak speakChain b depth) (front.append back).entered
      (node.lines catalog symbols (front.append back)
        ((front.append back).bodies catalog symbols (depth + 1)) depth) := by
  obtain ⟨hheldFront, hheldBack⟩ := Slots.held_append.1 hheld
  rw [Node.lines_eq hcat hmakes.mem hk hmakes.fits, hmakes.inputs.texts_append,
    Slots.entered_append]
  refine heading_writes hcat hk hmakes hsaid hheldFront hspeaks (fun hnest ↦ ?_) fun hnest ↦
    (branchSteps_writes b depth hnil).below hcat hnest hmakes hnames hheldBack hchains
  rw [eq_nil_of_makes hnest hmakes]
  rfl

/-- A call has no slots. -/
theorem eq_nil_of_call (hcat : catalog.IsRegular) {c : Command} (hk : c.kind = .call)
    {front back : Slots BlockId} (hmakes : c.Makes catalog target node front back) :
    front = .nil ∧ back = .nil := by
  refine ⟨?_, eq_nil_of_makes (by rw [hk]; decide) hmakes⟩
  obtain rfl := hcat.eq_essential hmakes.mem (by rw [hk]; rfl) (d := .procedureCall) (by decide)
    (by rw [Command.opcode, (hcat.regular c hmakes.mem).call hk]; rfl)
  exact Slots.Fill.eq_nil hmakes.inputs

theorem calledSignature_eq (hsaid : b.Says symbols node s) :
    calledSignature b = node.calledSignature symbols := by
  simp only [calledSignature, Node.calledSignature, Node.signature?, hsaid.procedure,
    Option.join_some]
  cases b.procedure <;> rfl

/-- The block of a statement is written as its tree. -/
theorem statement_writes (hcat : catalog.IsRegular) {c : Command}
    (hk : c.kind.isStatement = true) {front back : Slots BlockId}
    (hmakes : c.Makes catalog target node front back)
    (hsaid : b.Says symbols node s) {owner : BlockId}
    (hnames : ∀ name, name ∈ (front.append back).names ↔ (b.inputs.find? name).isSome)
    (hheld : (front.append back).Held ⟨t.blocks, symbols⟩ owner b.inputs)
    (hspeaks : front.EachValue (Speaks catalog symbols speak))
    (hchains : back.EachValue (SpeaksChain catalog symbols speakChain))
    (hnil : SpeaksChain catalog symbols speakChain .nil) (depth : Nat) :
    Writes (statement catalog t speak speakChain b depth) (front.append back).entered
      (node.lines catalog symbols (front.append back)
        ((front.append back).bodies catalog symbols (depth + 1)) depth) := by
  by_cases hcall : c.kind = .call
  · obtain ⟨rfl, rfl⟩ := eq_nil_of_call hcat hcall hmakes
    have hopcode : b.opcode = Opcode.call := by
      rw [hsaid.opcode, hmakes.fits.opcode, Command.opcode,
        (hcat.regular c hmakes.mem).call hcall]
      rfl
    rw [Node.lines_call hcat hmakes.mem hcall hmakes.fits]
    rw [statement, hopcode, ← calledSignature_eq hsaid]
    exact .pure _
  · refine header_writes hcat ?_ hmakes hsaid hnames hheld hspeaks hchains hnil depth
    cases hkind : c.kind <;> simp_all [CommandKind.isStatement, CommandKind.isHeader]

/-! ### Chains -/

/-- The inputs of a held block are written by a walk that may still enter their blocks. -/
theorem inputs_speak (hcat : catalog.IsRegular) {compares : Bool} {specs : List InputSpec}
    {front : Slots BlockId} (hfill : front.Fill catalog target compares specs []) {owner : BlockId}
    {inputs : Dict Slot} (hheld : front.Held ⟨t.blocks, symbols⟩ owner inputs) {bound : Nat}
    (hbound : front.entered.length ≤ bound) :
    front.EachValue (Speaks catalog symbols (expression catalog t bound)) := by
  have heach : front.EachValue fun v ↦ v ≠ .nil → ∀ s, v.Held ⟨t.blocks, symbols⟩ s →
      v.entered.length ≤ bound → Speaks catalog symbols (expression catalog t bound) v :=
    hfill.each fun v hv hne ↦ value_writes hcat hv hne bound
  refine (eachValue_held hheld hbound heach).mono ?_
  rintro v ⟨hv, ⟨s, hs⟩, hlen⟩
  by_cases hnil : v = .nil
  · exact hnil ▸ speaks_nil
  · exact hv hnil s hs hlen

theorem chain_none (bound : Nat) : SpeaksChain catalog symbols (chain catalog t bound) .nil := by
  intro depth
  simp only [Chain.start, Chain.entered, Chain.lines]
  cases bound <;> exact .pure _

/-- A chain is written as its first block and the chain after it. -/
theorem chain_writes {bound : Nat} {id : BlockId} (hfind : t.blocks.find? id = some b)
    {inner more : List BlockId} {lines rest : List String} {depth : Nat}
    (hfirst : Writes
      (statement catalog t (expression catalog t bound) (chain catalog t bound) b depth)
      inner lines)
    (hrest : Writes (chain catalog t bound b.next depth) more rest) :
    Writes (chain catalog t (bound + 1) (some id) depth) (id :: (inner ++ more))
      (lines ++ rest) := by
  refine (Writes.enter hfind).bind (hfirst.bind ?_)
  rw [← List.append_nil more]
  exact hrest.bind (.pure _)

theorem chain_cons {bound : Nat} {id : BlockId} {slots : Slots BlockId} {rest : Chain BlockId}
    (hfind : t.blocks.find? id = some b) (hnext : b.next = rest.start)
    (hfirst : ∀ depth, Writes (statement catalog t (expression catalog t bound)
      (chain catalog t bound) b depth) slots.entered
      (node.lines catalog symbols slots (slots.bodies catalog symbols (depth + 1)) depth))
    (hrest : SpeaksChain catalog symbols (chain catalog t bound) rest) :
    SpeaksChain catalog symbols (chain catalog t (bound + 1)) (.cons id node slots rest) := by
  intro depth
  simp only [Chain.start, Chain.entered, Chain.lines]
  exact chain_writes hfind (hfirst depth) (hnext ▸ hrest depth)

/-- **A walk writes a held chain of statements.** It enters the blocks of the chain, in their order,
and writes the lines of the tree. -/
theorem body_writes (hcat : catalog.IsRegular) {c : Chain BlockId}
    (hbody : c.IsBody catalog target) : ∀ (bound : Nat) (s : Setting),
    c.Held ⟨t.blocks, symbols⟩ s → c.entered.length ≤ bound →
      SpeaksChain catalog symbols (chain catalog t bound) c := by
  refine hbody.induction (motive := fun c ↦ ∀ (bound : Nat) (s : Setting),
    c.Held ⟨t.blocks, symbols⟩ s → c.entered.length ≤ bound →
      SpeaksChain catalog symbols (chain catalog t bound) c) (fun bound _ _ _ ↦ chain_none bound) ?_
  intro tag node front back rest c hk hmakes hchains _ ih bound s hheld hbound
  obtain ⟨b, hb, hsaid, hnext, hnames, hslots, hrest⟩ := hheld
  obtain ⟨hfront, hback⟩ := Slots.held_append.1 hslots
  simp only [Chain.entered, Slots.entered_append, List.length_cons, List.length_append] at hbound
  match bound, hbound with
  | bound + 1, hbound =>
    refine chain_cons hb hnext (fun depth ↦ ?_) (ih bound _ hrest (by omega))
    refine statement_writes hcat hk hmakes hsaid hnames hslots
      (inputs_speak hcat hmakes.inputs hfront (by omega)) ?_ (chain_none bound) depth
    have hsize : back.entered.length ≤ bound := by omega
    refine (eachValue_held hback hsize hchains).mono ?_
    rintro v ⟨hv, ⟨s, hs⟩, hlen⟩
    exact hv bound s hs hlen

end Listing

end BlockScript
