import BlockScript.Proofs.Listed
import BlockScript.Proofs.Recall

/-!
# The blocks of each line

The lines of a script are annotated with the blocks they write (`Listing.Line`): a line is the
header of one statement, with the values that are written in it, or it is a word between sub-chains.
The annotation is tied to the writer itself. The text of a header is what the writer gives for its
block when nothing is written below it, the values are the blocks that the walk enters on the way
(`Listing.Line.IsWritten`), and what is written for each value is a part of the line that has its
owner (`Listing.IsWrittenIn`).

`Listing.IsAccounted` says that texts can be annotated with given blocks. It holds of the lines of
every held chain of statements (`Listing.body_isAccounted`) and of every held script
(`Listing.script_isAccounted`).
-/

namespace BlockScript

/-! ### Parts of texts -/

/-- The text stands somewhere in the other one. -/
def Text.IsPart (part whole : String) : Prop :=
  part.toList <:+: whole.toList

namespace Text.IsPart

variable {part whole : String}

theorem refl (s : String) : IsPart s s :=
  List.infix_rfl

theorem trans {larger : String} (h : IsPart part whole) (hlarger : IsPart whole larger) :
    IsPart part larger :=
  List.IsInfix.trans h hlarger

theorem append_left (h : IsPart part whole) (front : String) : IsPart part (front ++ whole) := by
  rw [IsPart, String.toList_append]
  exact List.IsInfix.trans h (List.suffix_append _ _).isInfix

theorem append_right (h : IsPart part whole) (back : String) : IsPart part (whole ++ back) := by
  rw [IsPart, String.toList_append]
  exact List.IsInfix.trans h (List.prefix_append _ _).isInfix

/-- Each of some texts is a part of all of them together. -/
theorem of_mem (separator : String) : ∀ {parts : List String}, part ∈ parts →
    IsPart part (join separator parts)
  | [first], h => by
    rw [List.mem_singleton.1 h, join, String.intercalate_singleton]
    exact refl first
  | first :: second :: parts, h => by
    have hjoin : join separator (first :: second :: parts) =
        first ++ separator ++ join separator (second :: parts) := by
      simp only [join, String.intercalate_cons_cons]
    rw [hjoin]
    rcases List.mem_cons.1 h with rfl | h
    · exact ((refl part).append_right separator).append_right _
    · exact (of_mem separator h).append_left _

end Text.IsPart

variable {catalog : Catalog} {target : TargetKind} {symbols : Symbols}

/-! ### The texts of values -/

/-- A slot is written with the text of its value in it. -/
theorem InputSpec.isPart_spell (spec : InputSpec) (site : Listing.Site) (constant : Option Literal)
    {speech : String} (h : speech ≠ "") (choice : String) :
    Text.IsPart speech (spec.spell site constant speech choice) := by
  have hempty : speech.isEmpty = false := by simpa using h
  have hmarked : Text.IsPart speech (Listing.marked speech) :=
    (Text.IsPart.refl speech).append_left _
  unfold spell
  split
  · rw [hempty]
    exact hmarked
  · rw [Text.orElse_of_ne h]
    exact .refl speech
  · rw [hempty]
    show Text.IsPart speech (if _ then speech else Listing.marked speech)
    split
    · exact .refl speech
    · exact hmarked

theorem Chain.IsValue.speech_ne (hcat : catalog.IsRegular) {c : Chain BlockId}
    (hvalue : c.IsValue catalog target) (hne : c ≠ .nil) : c.speech catalog symbols ≠ "" := by
  have hrow : IsRow (c.speech catalog symbols).toList := hvalue.speech_isRow hcat hne
  intro hempty
  exact hrow.ne_nil (by rw [hempty]; rfl)

/-- Each value in the slots of a block has a part in one of the texts of the slots. -/
theorem Slots.Fill.speech_isPart (hcat : catalog.IsRegular) (symbols : Symbols)
    (site : Listing.Site) {compares : Bool} : ∀ {specs : List InputSpec} {slots : Slots BlockId},
    slots.Fill catalog target compares specs [] → slots.EachValue fun v ↦ v ≠ .nil →
      ∃ text ∈ slots.texts catalog symbols site specs, Text.IsPart (v.speech catalog symbols) text
  | [], .nil, _ => trivial
  | [], .cons .., ⟨⟨_, _, _, hmem⟩, _⟩ => absurd hmem List.not_mem_nil
  | spec :: specs, .cons _ constant value shadow rest, ⟨_, hvalue, hrest⟩ => by
    rw [Slots.texts]
    refine ⟨fun hne ↦ ⟨_, List.mem_cons_self, ?_⟩, (hrest.speech_isPart hcat symbols site).mono ?_⟩
    · exact spec.isPart_spell site constant (hvalue.speech_ne hcat hne) _
    · rintro v hv hne
      obtain ⟨text, htext, hpart⟩ := hv hne
      exact ⟨text, List.mem_cons_of_mem _ htext, hpart⟩
  | _ :: _, .nil, h => h.elim

/-- The text of a value holds the texts of the values in its slots. -/
theorem Chain.IsValue.speech_isPart (hcat : catalog.IsRegular) {tag : BlockId} {node : Node}
    {slots : Slots BlockId} (h : (Chain.cons tag node slots .nil).IsValue catalog target) :
    slots.EachValue fun v ↦ v ≠ .nil → Text.IsPart (v.speech catalog symbols)
      ((Chain.cons tag node slots .nil).speech catalog symbols) := by
  have hspelled : (Chain.cons tag node slots .nil).Spelled catalog symbols target := h.spelled hcat
  cases hspelled with
  | comparison hrelation hleft hright hfirst hsecond htext =>
    rw [htext]
    -- each operand is written whole on its side of the sign
    refine ⟨fun hne ↦ ?_, fun hne ↦ ?_, trivial⟩
    · rw [Literal.operandText_of_ne (hleft.speech_ne hcat hne), Comparison.write]
      exact ((((Text.IsPart.refl _).append_right _).append_right _).append_right _).append_right _
    · rw [Literal.operandText_of_ne (hright.speech_ne hcat hne), Comparison.write]
      exact (Text.IsPart.refl _).append_left _
  | @call _ _ _ c hc hkind havailable hnode hfill hrelation htext =>
    rw [htext]
    refine (hfill.speech_isPart hcat symbols .call).mono fun v hv hne ↦ ?_
    obtain ⟨text, htext, hpart⟩ := hv hne
    refine hpart.trans ?_
    have hin : text ∈ node.callTexts symbols c (slots.texts catalog symbols .call c.inputs) := by
      by_cases hargument : c.opcode = Opcode.argument ∨ c.opcode = Opcode.booleanArgument
      · -- the value of an argument is written by its name, but then it has no inputs
        have hblock := CommandKind.makesBlock_of_isExpression hkind
        obtain ⟨name, opcode, kind, rfl⟩ := hcat.eq_argument hc hblock hargument
        obtain rfl := Slots.Fill.eq_nil hfill
        exact absurd htext List.not_mem_nil
      · rw [not_or] at hargument
        rw [Listing.callTexts_of_ne hnode hargument.1 hargument.2]
        exact List.mem_append_right _ htext
    rw [Call.write]
    exact ((Text.IsPart.of_mem ", " hin).append_left _).append_right _

/-! ### Annotated lines -/

/-- Whether the blocks of a kind have a line of their own. -/
def CommandKind.hasLine : CommandKind → Bool
  | hat => true
  | define => true
  | stack => true
  | call => true
  | nesting => true
  | _ => false

/-- The block is made by a command of such a kind. -/
def Block.IsOf (catalog : Catalog) (p : CommandKind → Bool) (b : Block) : Prop :=
  ∃ c ∈ catalog.commands.values, c.opcode? = some b.opcode ∧ p c.kind = true

theorem Block.isOf_of_fits (hcat : catalog.IsRegular) {p : CommandKind → Bool} {c : Command}
    (hc : c ∈ catalog.commands.values) (hblock : c.kind.makesBlock = true) (hp : p c.kind = true)
    {b : Block} (hopcode : b.opcode = c.opcode) : b.IsOf catalog p :=
  ⟨c, hc, hopcode ▸ (hcat.regular c hc).opcode?_eq hblock, hp⟩

/-- A block with a line of its own is no value. -/
theorem Block.IsOf.not_isExpression (hcat : catalog.IsRegular) {b : Block}
    (h : b.IsOf catalog CommandKind.hasLine) : ¬b.IsOf catalog CommandKind.isExpression := by
  rintro ⟨d, hd, hopcode', hexpression⟩
  obtain ⟨c, hc, hopcode, hline⟩ := h
  obtain rfl := hcat.eq_of_opcode hc hd hopcode hopcode'
  cases hkind : c.kind <;> simp_all [CommandKind.hasLine, CommandKind.isExpression]

namespace Listing

variable {t : Target} {b : Block} {node : Node} {s : Setting}

/-- A line of a script, with the blocks that it writes. -/
inductive Line where
  /-- The line of a block, and the values in it. -/
  | header (text : String) (block : BlockId) (values : List BlockId)
  /-- A word between sub-chains or behind them. -/
  | word (text : String)
deriving DecidableEq, Repr

namespace Line

/-- The text of the line. -/
def text : Line → String
  | header text _ _ => text
  | word text => text

/-- The block that has the line. -/
def block? : Line → Option BlockId
  | header _ block _ => some block
  | word _ => none

/-- The values in the line. -/
def values : Line → List BlockId
  | header _ _ values => values
  | word _ => []

/-- All blocks that the line writes. -/
def blocks (line : Line) : List BlockId :=
  line.block?.toList ++ line.values

end Line

variable (catalog t) in
/-- What is written for a value on its own. -/
def speechOf (id : BlockId) : String :=
  ((expression catalog t t.blocks.size id).run {}).1

variable (catalog t) in
/-- The value is written in a text: it stands in a slot of one of the owners, and what is written
for it on its own is a part of the text. -/
structure IsWrittenIn (owners : List BlockId) (text : String) (id : BlockId) : Prop where
  /-- The block is a value that one of the owners has in a slot. -/
  value : ∃ b, t.blocks.find? id = some b ∧ b.shadow = false ∧
    b.IsOf catalog CommandKind.isExpression ∧ ∃ owner ∈ owners, b.parent = some owner
  /-- Something is written for it. -/
  speech_ne : speechOf catalog t id ≠ ""
  /-- This is a part of the text. -/
  isPart : Text.IsPart (speechOf catalog t id) text

theorem IsWrittenIn.mono {owners others : List BlockId} {text whole : String} {id : BlockId}
    (h : IsWrittenIn catalog t owners text id) (howners : ∀ owner ∈ owners, owner ∈ others)
    (htext : Text.IsPart text whole) : IsWrittenIn catalog t others whole id where
  value := by
    obtain ⟨b, hb, hshadow, hkind, owner, howner, hparent⟩ := h.value
    exact ⟨b, hb, hshadow, hkind, owner, howners owner howner, hparent⟩
  speech_ne := h.speech_ne
  isPart := h.isPart.trans htext

variable (catalog t) in
/-- What is written for a statement when nothing is written for the chains below it: its line, and
the words that would stand between them. -/
def bareStatement (b : Block) (depth : Nat) : Writer (List String) :=
  statement catalog t (expression catalog t t.blocks.size) (fun _ _ ↦ pure []) b depth

variable (catalog t) in
/-- The line is as the writer writes it. A header is the first line that is written for its block,
its values are the blocks entered for this line, and they are written in it. -/
def Line.IsWritten : Line → Prop
  | header text id values => ∃ b, t.blocks.find? id = some b ∧ b.shadow = false ∧
      b.IsOf catalog CommandKind.hasLine ∧
      (∃ depth words, (bareStatement catalog t b depth).run { visited := [id] } =
        (text :: words, { visited := id :: values })) ∧
      ∀ value ∈ values, IsWrittenIn catalog t (id :: values) text value
  | word text => ∃ depth, text = indent depth ((catalog.keyword? .otherwise).getD "else") ∨
      text = indent depth ((catalog.keyword? .finish).getD "end")

/-! ### Values in a line -/

/-- A walk can enter these blocks one after the other. -/
structure HasRoom (t : Target) (ids : List BlockId) : Prop where
  nodup : ids.Nodup
  length_le : ids.length ≤ t.blocks.size

theorem HasRoom.mono {ids part : List BlockId} (h : HasRoom t ids) (hpart : part.Sublist ids) :
    HasRoom t part :=
  ⟨h.nodup.sublist hpart, hpart.length_le.trans h.length_le⟩

theorem speechOf_eq (hcat : catalog.IsRegular) {c : Chain BlockId}
    (hvalue : c.IsValue catalog target) (hheld : c.Held ⟨t.blocks, symbols⟩ s)
    (hroom : HasRoom t c.entered) {id : BlockId} (hid : c.start = some id) :
    speechOf catalog t id = c.speech catalog symbols := by
  have hne : c ≠ .nil := by
    rintro rfl
    cases hid
  have hwrites := value_writes hcat hvalue hne t.blocks.size s hheld hroom.length_le id hid
  exact congrArg Prod.fst (hwrites {} hroom.nodup)

/-- The values in the slots of a block are written in a text that holds the text of each. -/
theorem slots_isWrittenIn {owner : BlockId} {inputs : Dict Slot} {text : String} :
    ∀ {slots : Slots BlockId}, slots.Held ⟨t.blocks, symbols⟩ owner inputs →
    HasRoom t slots.entered →
    slots.EachValue (fun v ↦ v ≠ .nil → v.Held ⟨t.blocks, symbols⟩ { parent := some owner } →
      HasRoom t v.entered → ∀ id ∈ v.entered,
        IsWrittenIn catalog t (owner :: v.entered) (v.speech catalog symbols) id) →
    slots.EachValue (fun v ↦ v ≠ .nil → Text.IsPart (v.speech catalog symbols) text) →
      ∀ id ∈ slots.entered, IsWrittenIn catalog t (owner :: slots.entered) text id
  | .nil, _, _, _, _, _, hid => absurd hid List.not_mem_nil
  | .cons _ _ value _ rest, ⟨_, hheld, _, hothers⟩, hroom, ⟨hvalue, heach⟩, ⟨hpart, hparts⟩, id,
      hid => by
    rw [Slots.entered] at hroom hid ⊢
    rcases List.mem_append.1 hid with hid | hid
    · -- a block in an empty slot does not exist
      have hne : value ≠ .nil := by
        rintro rfl
        exact absurd hid List.not_mem_nil
      have hfirst := hvalue hne hheld (hroom.mono (List.sublist_append_left _ _)) id hid
      refine hfirst.mono (fun other hother ↦ ?_) (hpart hne)
      exact (List.mem_cons.1 hother).elim (· ▸ List.mem_cons_self)
        fun h ↦ List.mem_cons_of_mem _ (List.mem_append_left _ h)
    · have hrest := slots_isWrittenIn hothers (hroom.mono (List.sublist_append_right _ _)) heach
        hparts id hid
      refine hrest.mono (fun other hother ↦ ?_) (.refl _)
      exact (List.mem_cons.1 hother).elim (· ▸ List.mem_cons_self)
        fun h ↦ List.mem_cons_of_mem _ (List.mem_append_right _ h)

/-- **Every block of a held value is written in the text of the value.** -/
theorem value_isWrittenIn (hcat : catalog.IsRegular) {c : Chain BlockId}
    (hvalue : c.IsValue catalog target) (hne : c ≠ .nil) : ∀ owner : BlockId,
    c.Held ⟨t.blocks, symbols⟩ { parent := some owner } → HasRoom t c.entered → ∀ id ∈ c.entered,
      IsWrittenIn catalog t (owner :: c.entered) (c.speech catalog symbols) id := by
  -- over the tree: a value in a slot has its text inside that of the block that owns the slot
  refine hvalue.induction (motive := fun c ↦ ∀ owner : BlockId,
    c.Held ⟨t.blocks, symbols⟩ { parent := some owner } → HasRoom t c.entered →
      ∀ id ∈ c.entered, IsWrittenIn catalog t (owner :: c.entered) (c.speech catalog symbols) id)
    ?_ hne
  intro tag node slots hvalue hslots owner hheld hroom id hid
  have hspeech := speechOf_eq hcat hvalue hheld hroom rfl
  obtain ⟨b, hb, hsaid, -, -, hslotsHeld, -⟩ := hheld
  have hshape := hvalue
  obtain ⟨-, c, hc, hkind, -, hnode, -⟩ := hshape
  rw [Chain.entered, Chain.entered, List.append_nil] at hroom hid ⊢
  rcases List.mem_cons.1 hid with rfl | hid
  · refine ⟨⟨b, hb, hsaid.shadow, ?_, owner, List.mem_cons_self, hsaid.parent⟩, ?_, ?_⟩
    · exact Block.isOf_of_fits hcat hc (CommandKind.makesBlock_of_isExpression hkind) hkind
        (hsaid.opcode.trans hnode.opcode)
    · rw [hspeech]
      exact hvalue.speech_ne hcat (by simp)
    · rw [hspeech]
      exact .refl _
  · have hinner := slots_isWrittenIn hslotsHeld (hroom.mono (List.sublist_cons_self _ _))
      (hslots.mono fun v hv hne ↦ hv hne tag) (hvalue.speech_isPart hcat) id hid
    exact hinner.mono (fun other hother ↦ List.mem_cons_of_mem _ hother) (.refl _)

/-! ### Lines of statements -/

theorem bareBranches_writes (catalog : Catalog) (b : Block) (depth : Nat) : ∀ names : List String,
    ∃ words, Writes (branches catalog (fun _ _ ↦ pure []) b depth names) [] words
  | [] => ⟨_, .pure _⟩
  | [_] => ⟨_, .pure _⟩
  | _ :: next :: names => by
    obtain ⟨words, hwords⟩ := bareBranches_writes catalog b depth (next :: names)
    exact ⟨_, (Writes.pure []).bind (hwords.bind (.pure _))⟩

/-- What is written for a statement of its own makes a header of it. -/
theorem isWritten_of_writes {id : BlockId} (hb : t.blocks.find? id = some b)
    (hshadow : b.shadow = false) (hkind : b.IsOf catalog CommandKind.hasLine) {depth : Nat}
    {text : String} {words : List String} {values : List BlockId}
    (hroom : HasRoom t (id :: values))
    (hwrites : Writes (bareStatement catalog t b depth) values (text :: words))
    (hvalues : ∀ value ∈ values, IsWrittenIn catalog t (id :: values) text value) :
    (Line.header text id values).IsWritten catalog t :=
  ⟨b, hb, hshadow, hkind, ⟨depth, words, hwrites { visited := [id] } hroom.nodup⟩, hvalues⟩

/-- The line of a hat or a statement with arguments. -/
theorem header_isWritten (hcat : catalog.IsRegular) {c : Command} (hk : c.kind.isHeader = true)
    {front back : Slots BlockId} (hmakes : c.Makes catalog target node front back) {id : BlockId}
    (hb : t.blocks.find? id = some b) (hsaid : b.Says symbols node s) (hshadow : s.shadow = false)
    (hheld : front.Held ⟨t.blocks, symbols⟩ id b.inputs) (hroom : HasRoom t (id :: front.entered))
    (depth : Nat) :
    (Line.header (indent depth (commandLine c.header.name
      (node.fieldTexts symbols c.fields ++ front.texts catalog symbols .line c.inputs))) id
      front.entered).IsWritten catalog t := by
  have hinner := hroom.mono (List.sublist_cons_self _ _)
  have hkind : b.IsOf catalog CommandKind.hasLine := by
    refine Block.isOf_of_fits hcat hmakes.mem (CommandKind.isHeader_facts hk).1 ?_
      (hsaid.opcode.trans hmakes.fits.opcode)
    cases hkind : c.kind <;> simp_all [CommandKind.isHeader, CommandKind.hasLine]
  obtain ⟨words, hwords⟩ := bareBranches_writes catalog b depth c.stackNames
  have hwrites := heading_writes hcat hk hmakes hsaid hheld
    (inputs_speak hcat hmakes.inputs hheld hinner.length_le) (fun _ ↦ rfl) fun _ ↦ hwords
  rw [List.append_nil] at hwrites
  refine isWritten_of_writes hb (hsaid.shadow.trans hshadow) hkind hroom hwrites ?_
  refine slots_isWrittenIn hheld hinner
    (hmakes.inputs.each fun v hv hne ↦ value_isWrittenIn hcat hv hne id)
    ((hmakes.inputs.speech_isPart hcat symbols .line).mono fun v hv hne ↦ ?_)
  obtain ⟨text, htext, hpart⟩ := hv hne
  refine hpart.trans (Text.IsPart.append_left ?_ _)
  exact .of_mem " " (List.mem_cons_of_mem _ (List.mem_append_right _ htext))

/-- The line of a call. -/
theorem call_isWritten (hcat : catalog.IsRegular) {c : Command} (hk : c.kind = .call)
    (hc : c ∈ catalog.commands.values) (hnode : node.Fits c) {id : BlockId}
    (hb : t.blocks.find? id = some b) (hsaid : b.Says symbols node s) (hshadow : s.shadow = false)
    (hroom : HasRoom t [id]) (depth : Nat) :
    (Line.header (indent depth ("call " ++ node.calledSignature symbols)) id []).IsWritten
      catalog t := by
  have hkind : b.IsOf catalog CommandKind.hasLine :=
    Block.isOf_of_fits hcat hc (by rw [hk]; rfl) (by rw [hk]; rfl)
      (hsaid.opcode.trans hnode.opcode)
  have hopcode : b.opcode = Opcode.call := by
    rw [hsaid.opcode, hnode.opcode, Command.opcode, (hcat.regular c hc).call hk]
    rfl
  have hwrites : Writes (bareStatement catalog t b depth) []
      [indent depth ("call " ++ node.calledSignature symbols)] := by
    rw [bareStatement, statement, hopcode, ← calledSignature_eq hsaid]
    exact .pure _
  exact isWritten_of_writes hb (hsaid.shadow.trans hshadow) hkind hroom hwrites
    (List.forall_mem_nil _)

/-! ### Accounts -/

variable (catalog t) in
/-- The texts are lines that write these blocks. -/
def IsAccounted (texts : List String) (ids : List BlockId) : Prop :=
  ∃ lines : List Line, lines.map Line.text = texts ∧ lines.flatMap Line.blocks = ids ∧
    ∀ line ∈ lines, line.IsWritten catalog t

namespace IsAccounted

variable {texts more : List String} {ids others : List BlockId}

theorem nil : IsAccounted catalog t [] [] :=
  ⟨[], rfl, rfl, List.forall_mem_nil _⟩

theorem append (h : IsAccounted catalog t texts ids) (hmore : IsAccounted catalog t more others) :
    IsAccounted catalog t (texts ++ more) (ids ++ others) := by
  obtain ⟨lines, rfl, rfl, hlines⟩ := h
  obtain ⟨others, rfl, rfl, hothers⟩ := hmore
  exact ⟨lines ++ others, List.map_append, List.flatMap_append,
    fun line hline ↦ (List.mem_append.1 hline).elim (hlines line) (hothers line)⟩

theorem of_line (line : Line) (h : line.IsWritten catalog t) :
    IsAccounted catalog t [line.text] line.blocks :=
  ⟨[line], rfl, List.flatMap_singleton .., List.forall_mem_singleton.2 h⟩

/-- The word for else. -/
theorem otherwise (depth : Nat) :
    IsAccounted catalog t [indent depth ((catalog.keyword? .otherwise).getD "else")] [] :=
  of_line (.word _) ⟨depth, .inl rfl⟩

/-- The word for the end. -/
theorem finish (depth : Nat) :
    IsAccounted catalog t [indent depth ((catalog.keyword? .finish).getD "end")] [] :=
  of_line (.word _) ⟨depth, .inr rfl⟩

end IsAccounted

/-- Sub-chains are accounted for one after the other. -/
theorem branchSteps_isAccounted (b : Block) (depth : Nat) :
    BranchSteps catalog symbols b depth
      (fun c ↦ ∀ depth, IsAccounted catalog t (c.lines catalog symbols depth) c.entered)
      fun _ ids lines ↦ IsAccounted catalog t lines ids where
  missing _ := by
    rw [Chain.lines, Chain.entered]
    exact .nil
  none := .nil
  last _ _ _ hvalue := hvalue (depth + 1)
  more _ _ _ value ids lines _ hvalue hrest := by
    have hothers := (IsAccounted.otherwise depth).append hrest
    exact (hvalue (depth + 1)).append hothers

/-- The lines of a statement and of its sub-chains. -/
theorem statement_isAccounted (hcat : catalog.IsRegular) {c : Command}
    (hk : c.kind.isHeader = true ∨ c.kind = .call) {front back : Slots BlockId}
    (hmakes : c.Makes catalog target node front back) {id : BlockId}
    (hb : t.blocks.find? id = some b) (hsaid : b.Says symbols node s) (hshadow : s.shadow = false)
    (hnames : ∀ name, name ∈ (front.append back).names ↔ (b.inputs.find? name).isSome)
    (hheld : (front.append back).Held ⟨t.blocks, symbols⟩ id b.inputs)
    (hroom : HasRoom t (id :: (front.append back).entered))
    (hchains : back.EachValue fun c ↦
      ∀ depth, IsAccounted catalog t (c.lines catalog symbols depth) c.entered) (depth : Nat) :
    IsAccounted catalog t (node.lines catalog symbols (front.append back)
      ((front.append back).bodies catalog symbols (depth + 1)) depth)
      (id :: (front.append back).entered) := by
  -- a call has no inputs and no sub-chains of its own
  rcases hk with hk | hk
  · obtain ⟨hfront, hback⟩ := Slots.held_append.1 hheld
    rw [Slots.entered_append] at hroom ⊢
    rw [Node.lines_eq hcat hmakes.mem hk hmakes.fits, hmakes.inputs.texts_append]
    have hline := IsAccounted.of_line _ (header_isWritten hcat hk hmakes hb hsaid hshadow hfront
      (hroom.mono ((List.sublist_append_left _ _).cons_cons id)) depth)
    by_cases hnest : c.kind = .nesting
    · have hbelow := (branchSteps_isAccounted b depth).below hcat hnest hmakes hnames hback hchains
      rw [if_pos hnest, ← List.append_nil back.entered]
      exact hline.append (hbelow.append (.finish depth))
    · rw [if_neg hnest, eq_nil_of_makes hnest hmakes]
      exact hline.append .nil
  · obtain ⟨rfl, rfl⟩ := eq_nil_of_call hcat hk hmakes
    rw [Node.lines_call hcat hmakes.mem hk hmakes.fits]
    exact .of_line _ (call_isWritten hcat hk hmakes.mem hmakes.fits hb hsaid hshadow hroom depth)

/-! ### Chains and scripts -/

/-- **Every block of a held chain of statements is accounted for.** -/
theorem body_isAccounted (hcat : catalog.IsRegular) {c : Chain BlockId}
    (hbody : c.IsBody catalog target) : ∀ s : Setting, s.shadow = false →
    c.Held ⟨t.blocks, symbols⟩ s → HasRoom t c.entered → ∀ depth,
      IsAccounted catalog t (c.lines catalog symbols depth) c.entered := by
  refine hbody.induction (motive := fun c ↦ ∀ s : Setting, s.shadow = false →
    c.Held ⟨t.blocks, symbols⟩ s → HasRoom t c.entered → ∀ depth,
      IsAccounted catalog t (c.lines catalog symbols depth) c.entered) ?_ ?_
  · intro _ _ _ _ depth
    rw [Chain.lines, Chain.entered]
    exact .nil
  · intro tag node front back rest c hk hmakes hchains _ ih s hshadow hheld hroom depth
    obtain ⟨b, hb, hsaid, -, hnames, hslots, hrest⟩ := hheld
    rw [Chain.entered, ← List.cons_append] at hroom ⊢
    rw [Chain.lines]
    have hback := (Slots.held_append.1 hslots).2
    have hkind : c.kind.isHeader = true ∨ c.kind = .call := by
      cases hkind : c.kind <;> simp_all [CommandKind.isStatement, CommandKind.isHeader]
    have hfirst := hroom.mono (List.sublist_append_left _ _)
    have hothers := hroom.mono (List.sublist_append_right _ _)
    refine (statement_isAccounted hcat hkind hmakes hb hsaid hshadow hnames hslots hfirst ?_
      depth).append (ih _ rfl hrest hothers depth)
    -- the sub-chains have room since the block has
    have hinner : HasRoom t back.entered := by
      refine hfirst.mono (List.Sublist.cons _ ?_)
      rw [Slots.entered_append]
      exact List.sublist_append_right _ _
    refine (eachValue_below hback hchains).mono ?_
    rintro v ⟨hv, hheld, hsub⟩
    exact hv _ rfl hheld (hinner.mono hsub)

/-- Every block of a held script is accounted for. -/
theorem script_isAccounted (hcat : catalog.IsRegular) {c : Chain BlockId}
    (hscript : c.IsScript catalog target) (hshadow : s.shadow = false)
    (hheld : c.Held ⟨t.blocks, symbols⟩ s) (hroom : HasRoom t c.entered) (depth : Nat) :
    IsAccounted catalog t (c.lines catalog symbols depth) c.entered := by
  cases c with
  | nil => exact hscript.elim
  | cons tag node slots rest =>
    obtain ⟨hhead, hbody⟩ := hscript
    obtain ⟨b, hb, hsaid, -, hnames, hslots, hrest⟩ := hheld
    rw [Chain.entered, ← List.cons_append] at hroom ⊢
    rw [Chain.lines]
    have hfirst := hroom.mono (List.sublist_append_left _ _)
    have hothers := hroom.mono (List.sublist_append_right _ _)
    refine IsAccounted.append ?_ (body_isAccounted hcat hbody _ rfl hrest hothers depth)
    -- a hat is a statement without sub-chains, and a definition has a line of its own
    rcases hhead with ⟨c, hmem, hkind, havailable, hnode, hfill⟩ | ⟨rfl, tag', name, -, rfl⟩
    · have hback : (Slots.nil : Slots BlockId).Fill catalog target
          (Opcode.isComparison c.opcode) [] c.branchNames := trivial
      have haccounted := statement_isAccounted hcat (.inl (by rw [hkind]; rfl))
        ⟨hmem, havailable, hnode, hfill, hback⟩ hb hsaid hshadow (by simpa using hnames)
        (by simpa using hslots) (by simpa using hfirst) trivial depth
      simpa using haccounted
    · have hkind : b.IsOf catalog CommandKind.hasLine :=
        ⟨.definition, hcat.essential _ (by decide), congrArg some hsaid.opcode.symm, rfl⟩
      exact .of_line (.header _ tag []) (isWritten_of_writes hb (hsaid.shadow.trans hshadow) hkind
        hfirst (definition_writes hsaid hslots [] depth) (List.forall_mem_nil _))

end Listing

end BlockScript
