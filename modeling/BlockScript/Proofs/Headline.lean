import BlockScript.Proofs.Recall

/-!
# Reading a written line

The line of a statement holds the word of its command, its fields and its inputs. A condition is the
only one of them that may consist of several words, and it has its line for itself. So the words of
the line say what was written (`Node.exists_words`), and reading the line gives a block that
resembles the one it was written for (`Sheet.line_header`).
-/

namespace BlockScript

variable {α : Type} {catalog : Catalog} {target : TargetKind} {symbols : Symbols}

/-! ### Joined words -/

namespace Text

/-- Words that are joined twice might as well be joined once. -/
theorem join_join (first : String) {words : List String} (h : words ≠ []) :
    join " " [first, join " " words] = join " " (first :: words) := by
  obtain ⟨second, words, rfl⟩ := List.exists_cons_of_ne_nil h
  rw [join_cons_cons, join_cons_cons]
  refine congrArg _ (String.toList_inj.1 ?_)
  simp [toList_join]

theorem length_le_join {word : String} : ∀ {words : List String}, word ∈ words →
    word.length ≤ (join " " words).length
  | [first], h => by
    rw [List.mem_singleton.1 h, ← String.length_toList, ← String.length_toList, toList_join]
    simp
  | first :: second :: words, h => by
    rw [join_cons_cons, String.length_append, String.length_append]
    rcases List.mem_cons.1 h with rfl | h
    · omega
    · have := length_le_join h
      omega

end Text

/-- Rows in a row are a row. -/
theorem IsRow.join : ∀ {first : String} {words : List String},
    (∀ w ∈ first :: words, IsRow w.toList) → IsRow (Text.join " " (first :: words)).toList
  | first, [], h => by
    have hfirst := h first List.mem_cons_self
    rwa [Text.toList_join, List.map_singleton, List.intercalate_singleton]
  | first, second :: words, h => by
    have hspace : Phrase isRowChar [' '] := .char (by decide) (by decide) .nil
    have hrest : IsRow (Text.join " " (second :: words)).toList :=
      IsRow.join fun w hw ↦ h w (List.mem_cons_of_mem _ hw)
    rw [Text.join_cons_cons, String.toList_append, String.toList_append, List.append_assoc]
    exact (h first List.mem_cons_self).append hspace hrest

theorem Listing.trim_toList_indent (depth : Nat) (text : String) :
    Chars.trim (indent depth text).toList = Chars.trim text.toList := by
  rw [indent, String.toList_append]
  refine Chars.trim_append fun c hc ↦ ?_
  have hspaces : ∀ d ∈ indentation.toList, Text.isWhite d = true :=
    List.all_eq_true.1 (by decide)
  simp only [Text.replicate, String.toList_join, List.mem_flatMap, List.mem_replicate] at hc
  obtain ⟨s, ⟨-, rfl⟩, hc⟩ := hc
  exact hspaces c hc

theorem Listing.trim_indent (depth : Nat) {text : String}
    (h : Chars.trim text.toList = text.toList) : Text.trim (indent depth text) = text := by
  rw [Text.trim, trim_toList_indent, h, String.ofList_toList]

/-- Where white space is dropped at the end of a word and what follows it, the word stays. -/
theorem Chars.exists_trimEnd_append {p tail : List Char} (hp : ∀ c ∈ p, Text.isWhite c = false)
    (htail : tail = [] ∨ ∃ more, tail = ' ' :: more) :
    ∃ rest, (rest = [] ∨ ∃ more, rest = ' ' :: more) ∧ Chars.trimEnd (p ++ tail) = p ++ rest := by
  rw [Chars.trimEnd, List.reverse_append, List.dropWhile_append]
  split
  · have hkeep : p.reverse.dropWhile Text.isWhite = p.reverse := by
      refine List.dropWhile_eq_self_iff.2 fun hlength ↦ ?_
      exact Bool.eq_false_iff.1 (hp _ (List.mem_reverse.1 (List.getElem_mem hlength)))
    exact ⟨[], .inl rfl, by rw [hkeep, List.reverse_reverse, List.append_nil]⟩
  · refine ⟨Chars.trimEnd tail, ?_, by rw [List.reverse_append, List.reverse_reverse]; rfl⟩
    rcases htail with rfl | ⟨more, rfl⟩
    · exact .inl rfl
    · cases htrim : Chars.trimEnd (' ' :: more) with
      | nil => exact .inl rfl
      | cons c rest =>
        have hstart := Chars.trimEnd_isPrefix (' ' :: more)
        rw [htrim] at hstart
        exact .inr ⟨rest, by rw [(List.cons_prefix_cons.1 hstart).1]⟩

/-- A line of a script without white space around it: a word, and what follows it. -/
theorem Listing.exists_trim_commandLine {word : String}
    (hchars : ∀ c ∈ word.toList, isWordChar c = true)
    (hne : word.toList ≠ []) (depth : Nat) (words : List String) :
    ∃ tail, (tail = [] ∨ ∃ more, tail = ' ' :: more) ∧
      Chars.trim (Listing.indent depth (Listing.commandLine word words)).toList =
        word.toList ++ tail := by
  have hwhite : ∀ c ∈ word.toList, Text.isWhite c = false := fun c hc ↦
    not_isWhite_of_isWordChar (hchars c hc)
  obtain ⟨tail, htail, hline⟩ : ∃ tail, (tail = [] ∨ ∃ more, tail = ' ' :: more) ∧
      (Listing.commandLine word words).toList = word.toList ++ tail := by
    cases words with
    | nil => exact ⟨[], .inl rfl, by simp [Listing.commandLine, Text.join]⟩
    | cons first rest =>
      refine ⟨' ' :: (Text.join " " (first :: rest)).toList, .inr ⟨_, rfl⟩, ?_⟩
      rw [Listing.commandLine, Text.join_cons_cons]
      simp
  obtain ⟨first, others, hcons⟩ := List.exists_cons_of_ne_nil hne
  have hstart : Chars.trimStart (word.toList ++ tail) = word.toList ++ tail := by
    rw [hcons, List.cons_append, Chars.trimStart, List.dropWhile_cons_of_neg]
    simp [hwhite first (hcons ▸ List.mem_cons_self)]
  rw [Listing.trim_toList_indent, hline, Chars.trim, hstart]
  exact Chars.exists_trimEnd_append hwhite htail

/-! ### Lines of commands -/

/-- A line that starts with the word of a command is followed as that command. -/
theorem Sheet.line_command {name rest : String} {raw : List String} {c : Command}
    (hname : Chars.isIdentifier name.toList = true) (hresolve : catalog.resolve? name = some c)
    (htrim : Chars.trim (name ++ rest).toList = (name ++ rest).toList)
    (hsplit : Token.splitLine (name ++ rest) = name :: raw) (n depth : Nat) (σ : Sheet Unit) :
    σ.line catalog target ⟨n, Listing.indent depth (name ++ rest)⟩ =
      σ.command (Reading.expression catalog target n (catalog.nestingBound (name ++ rest).length))
        target n c (raw.map Token.unquote) raw := by
  have hword := Chars.isWord_identifier hname
  obtain ⟨first, more, hcs, hfirst⟩ := Chars.head?_identifier hname
  have hunquote : Token.unquote name = name := by
    refine Token.unquote_eq_self hword fun d hd ↦ ?_
    rw [hcs] at hd
    exact Option.some.inj hd ▸ hfirst.2
  have hnumber : Text.startsWith (name ++ rest) "#" = false := by
    have hne : first ≠ '#' := by
      rintro rfl
      rw [hcs] at hname
      cases hname
    have hmark : "#".toList = ['#'] := rfl
    simp [Text.startsWith, hcs, hmark, List.isPrefixOf, Ne.symm hne]
  have hempty : (name ++ rest).isEmpty = false := by
    rw [Bool.eq_false_iff]
    intro h
    have := congrArg String.toList (String.isEmpty_iff.1 h)
    simp [hcs] at this
  simp only [Sheet.line, Listing.trim_indent depth htrim, hempty, hnumber, Bool.or_self,
    Bool.false_eq_true, if_false, hsplit, hunquote, hresolve]

/-- The words of a line are told apart. -/
theorem Sheet.line_words {name : String} {words raw : List String} {c : Command}
    (hname : Chars.isIdentifier name.toList = true) (hresolve : catalog.resolve? name = some c)
    (hrows : ∀ w ∈ words, IsRow w.toList) (hpieces : ∀ w ∈ raw, IsPiece w.toList)
    (hline : Listing.commandLine name words = Listing.commandLine name raw) (n depth : Nat)
    (σ : Sheet Unit) :
    σ.line catalog target ⟨n, Listing.indent depth (Listing.commandLine name words)⟩ =
      σ.command (Reading.expression catalog target n
          (catalog.nestingBound (Listing.commandLine name words).length))
        target n c (raw.map Token.unquote) raw := by
  have hword := Chars.isWord_identifier hname
  have hrow : IsRow (Listing.commandLine name words).toList := by
    refine IsRow.join fun w hw ↦ ?_
    rcases List.mem_cons.1 hw with rfl | hw
    · exact hword.isRow
    · exact hrows w hw
  have hsplit : Token.splitLine (Listing.commandLine name words) = name :: raw := by
    rw [hline]
    refine Token.splitLine_join fun w hw ↦ ?_
    rcases List.mem_cons.1 hw with rfl | hw
    · exact hword.isPiece
    · exact hpieces w hw
  obtain ⟨rest, hrest⟩ := Text.exists_join_cons name words
  have hrest : Listing.commandLine name words = name ++ rest := hrest
  rw [hrest] at hrow hsplit ⊢
  exact Sheet.line_command hname hresolve hrow.trim hsplit n depth σ

/-! ### The words of a statement -/

/-- What a slot that is no condition holds on a line is a word. -/
theorem InputSpec.isWord_spell {spec : InputSpec} (hspec : spec.IsRegular)
    (hkind : spec.kind ≠ .boolean) (constant : Option Literal) {speech : String}
    (hspeech : speech = "" ∨ ∃ name args, Call.IsWritable name args ∧ speech = Call.write name args)
    (choice : String) : IsWord (spec.spell .line constant speech choice).toList := by
  have hmarked : ¬ speech.isEmpty = true → IsWord (Listing.marked speech).toList := by
    intro hne
    obtain ⟨name, args, hcall, rfl⟩ := hspeech.resolve_left fun h ↦ hne (by rw [h]; rfl)
    have hsplit : (Listing.marked (Call.write name args)).toList =
        '@' :: (Call.write name args).toList := by
      simp [Listing.marked]
    rw [hsplit]
    exact ⟨.char (by decide) (by decide) hcall.isWord.phrase, List.cons_ne_nil _ _⟩
  unfold spell
  split
  · split
    · exact Token.isWord_format _
    · next hne => exact hmarked hne
  · next hboolean => exact absurd hboolean hkind
  · split
    · exact isWord_constantText hspec _
    · next hne =>
      split
      · next hsite => cases (Bool.and_eq_true_iff.1 hsite).1
      · exact hmarked hne

/-- Without a condition among the inputs each of their texts is a word. -/
theorem Slots.Fill.texts_areWords (hcat : catalog.IsRegular) {opcode : String} :
    ∀ {specs : List InputSpec} {slots : Slots α}, (∀ spec ∈ specs, spec.IsRegular) →
      (∀ spec ∈ specs, spec.kind ≠ .boolean) → slots.Fill catalog target false specs [] →
      slots.IsLegible catalog symbols opcode →
        ∀ text ∈ slots.texts catalog symbols .line specs, IsWord text.toList
  | [], _, _, _, _, _, _, htext => absurd htext (by simp [Slots.texts])
  | _ :: _, .nil, _, _, h, _, _, _ => h.elim
  | spec :: specs, .cons input constant value shadow rest, hspecs, hkinds,
      ⟨⟨_, hadmits⟩, hvalue, hfill⟩, ⟨⟨hstands, _⟩, _, hlegible⟩, text, htext => by
    rw [Slots.texts] at htext
    rcases List.mem_cons.1 htext with rfl | htext
    · have hkind := hkinds spec List.mem_cons_self
      refine InputSpec.isWord_spell (hspecs spec List.mem_cons_self) hkind constant ?_ _
      by_cases hnil : value = .nil
      · subst hnil
        exact .inl (by simp [Chain.speech])
      · exact .inr (hvalue.exists_call symbols hcat hnil (hadmits.compares_eq_false hkind fun h ↦
          ⟨(hstands h).constant, (hstands h).shadow⟩))
    · exact hfill.texts_areWords hcat (fun s hs ↦ hspecs s (List.mem_cons_of_mem _ hs))
        (fun s hs ↦ hkinds s (List.mem_cons_of_mem _ hs)) hlegible text htext

/-- A legible condition consists of words and signs. -/
theorem Chain.IsValue.exists_pieces (hcat : catalog.IsRegular) {v : Chain α}
    (hvalue : v.IsValue catalog target) (hne : v ≠ .nil) (hlegible : v.IsLegible catalog symbols) :
    ∃ words, words ≠ [] ∧ (∀ w ∈ words, IsPiece w.toList) ∧
      Text.join " " words = v.speech catalog symbols := by
  cases hcompares : v.compares with
  | false =>
    obtain ⟨name, args, hcall, htext⟩ := hvalue.exists_call symbols hcat hne hcompares
    refine ⟨[v.speech catalog symbols], List.cons_ne_nil _ _, fun w hw ↦ ?_,
      String.toList_inj.1 (by simp [Text.toList_join])⟩
    rw [List.mem_singleton.1 hw, htext]
    exact hcall.isWord.isPiece
  | true =>
    obtain ⟨tag, node, relation, first, second, left, right, rfl, hrelation, ⟨hleft, hfirst⟩,
      ⟨hright, hsecond⟩, htext⟩ := hvalue.exists_comparison symbols hcat hcompares
    obtain ⟨hl, hr⟩ := Reading.operands_legible hrelation hlegible.1
    have hsign : IsPiece relation.symbol.toList :=
      ⟨.of_ordinary (by cases relation <;> decide), by cases relation <;> decide⟩
    refine ⟨[Literal.operandText first (left.speech catalog symbols), relation.symbol,
      Literal.operandText second (right.speech catalog symbols)], List.cons_ne_nil _ _, ?_, ?_⟩
    · simp only [List.mem_cons, List.not_mem_nil, or_false]
      rintro w (rfl | rfl | rfl)
      · exact (Reading.isOperand_operandText hcat hleft hl hfirst).isWord.isPiece
      · exact hsign
      · exact (Reading.isOperand_operandText hcat hright hr hsecond).isWord.isPiece
    · rw [htext]
      refine String.toList_inj.1 ?_
      simp [Text.toList_join, Comparison.toList_write, List.intercalate_cons_cons]

variable (symbols) in
/-- These words behind the name of a command say what its fields and its inputs, with the given
texts, say. -/
structure Node.SaidIn (node : Node) (c : Command) (texts raw : List String) : Prop where
  pieces : ∀ w ∈ raw, IsPiece w.toList
  line : ∀ name, Listing.commandLine name (node.fieldTexts symbols c.fields ++ texts) =
    Listing.commandLine name raw
  fields : List.Forall₂ (fun spec text ↦ (Arguments.ofLine (raw.map Token.unquote) raw).read
    spec.source = Token.unquote text) c.fields (node.fieldTexts symbols c.fields)
  inputs : List.Forall₂ (fun spec text ↦ Reading.rawText spec
    (.ofLine (raw.map Token.unquote) raw) =
    if spec.kind = .boolean then text else Token.unquote text) c.inputs texts

/-- A condition, which may consist of several words, is all that stands on its line. -/
theorem Node.exists_saidIn_condition (hcat : catalog.IsRegular) {c : Command} (hc : c.IsRegular)
    {spec : InputSpec} (hfields : c.fields = []) (hinputs : c.inputs = [spec])
    (hspec : spec.kind = .boolean) (node : Node) {slots : Slots α}
    (hfill : slots.Fill catalog target false c.inputs [])
    (hlegible : slots.IsLegible catalog symbols node.opcode) :
    ∃ raw, node.SaidIn symbols c (slots.texts catalog symbols .line c.inputs) raw := by
  have hposition : spec.source.position? = some 0 := by
    have hordered := hc.ordered
    simp only [Command.sources, hfields, hinputs] at hordered
    exact (List.cons.inj hordered).1
  rw [hinputs] at hfill
  cases slots with
  | nil => exact hfill.elim
  | cons input constant value shadow rest =>
    obtain ⟨⟨-, hadmits⟩, hvalue, hrest⟩ := hfill
    obtain rfl := hrest.eq_nil
    simp only [InputSpec.Admits, hspec] at hadmits
    obtain ⟨words, hne, hpieces, hjoin⟩ := hvalue.exists_pieces hcat hadmits.2.2 hlegible.2.1
    have hspell : spec.spell .line constant (value.speech catalog symbols)
        (shadow.choice symbols) = Text.join " " words := by
      rw [hjoin]
      exact InputSpec.spell_condition hcat hspec hvalue hadmits.2.2 _ _ _
    have htexts : (Slots.cons input constant value shadow .nil).texts catalog symbols .line
        c.inputs = [Text.join " " words] := by
      simp only [hinputs, Slots.texts, hspell]
    rw [htexts]
    refine ⟨words, hpieces, fun name ↦ ?_, ?_, ?_⟩
    · rw [hfields]
      exact Text.join_join name hne
    · rw [hfields]
      exact .nil
    · rw [hinputs]
      refine .cons ?_ .nil
      simp [Reading.rawText, hspec, Arguments.readCondition, hposition]

/-- Without a condition each text is a word of its own. -/
theorem Node.saidIn_words (hcat : catalog.IsRegular) {c : Command} (hc : c.IsRegular)
    (hkinds : ∀ spec ∈ c.inputs, spec.kind ≠ .boolean) (node : Node) {slots : Slots α}
    (hfill : slots.Fill catalog target false c.inputs [])
    (hlegible : slots.IsLegible catalog symbols node.opcode) :
    node.SaidIn symbols c (slots.texts catalog symbols .line c.inputs)
      (node.fieldTexts symbols c.fields ++ slots.texts catalog symbols .line c.inputs) := by
  obtain ⟨hfields, hinputs⟩ := Reading.read_texts symbols hc node .line hfill (.ofLine _
    (node.fieldTexts symbols c.fields ++ slots.texts catalog symbols .line c.inputs)) rfl
  refine ⟨fun w hw ↦ ?_, fun _ ↦ rfl, hfields, ?_⟩
  · rcases List.mem_append.1 hw with hw | hw
    · obtain ⟨spec, -, rfl⟩ := List.mem_map.1 hw
      exact (Token.isWord_format _).isPiece
    · exact (hfill.texts_areWords hcat hc.inputs hkinds hlegible w hw).isPiece
  · obtain ⟨hlen, hzip⟩ := List.forall₂_iff_zip.1 hinputs
    refine List.forall₂_iff_zip.2 ⟨hlen, fun {spec text} hmem ↦ ?_⟩
    have hspec := hkinds spec (List.of_mem_zip hmem).1
    rw [Reading.rawText, if_neg hspec, if_neg hspec]
    exact hzip hmem

/-- The words of a line say what its fields and inputs say. A condition is the only text that may
consist of several words, and then it is the only one. -/
theorem Node.exists_words (hcat : catalog.IsRegular) {c : Command}
    (hc : c ∈ catalog.commands.values) (hkind : c.kind.isExpression = false) (node : Node)
    {slots : Slots α} (hfill : slots.Fill catalog target false c.inputs [])
    (hlegible : slots.IsLegible catalog symbols node.opcode) :
    ∃ raw, node.SaidIn symbols c (slots.texts catalog symbols .line c.inputs) raw := by
  have hregular := hcat.regular c hc
  by_cases hboolean : ∃ spec ∈ c.inputs, spec.kind = .boolean
  · obtain ⟨hfields, hlength⟩ := hregular.condition hkind hboolean
    obtain ⟨spec, hinputs⟩ := List.length_eq_one_iff.1 hlength
    obtain ⟨other, hother, hspec⟩ := hboolean
    rw [hinputs, List.mem_singleton] at hother
    exact node.exists_saidIn_condition hcat hregular hfields hinputs (hother ▸ hspec) hfill hlegible
  · have hkinds : ∀ spec ∈ c.inputs, spec.kind ≠ .boolean := fun spec hspec h ↦
      hboolean ⟨spec, hspec, h⟩
    exact ⟨_, node.saidIn_words hcat hregular hkinds hfill hlegible⟩

/-! ### Statements -/

/-- Puts a chain at the end of the open script. -/
def Sheet.extend (σ : Sheet Unit) (c : Tree) : Sheet Unit :=
  { σ with current := σ.current.map (·.append c) }

/-- A hat starts a script, where no nesting block is open. Any other statement goes into the open
script, or into one that is started for it. -/
theorem Sheet.command_statement {c : Command} (hkind : c.kind.isHeader = true)
    (havailable : c.isAvailableOn target = true) {σ : Sheet Unit}
    (hσ : c.kind = .hat → σ.isNested = false) (read : Reading.Reader) (n : Nat)
    (tokens raw : List String) : σ.command read target n c tokens raw =
      (if c.kind = .hat then σ else σ.ensureScript).statement read n c tokens raw := by
  unfold Sheet.command
  cases hk : c.kind <;> rw [hk] at hkind hσ <;> try cases hkind
  case hat => simp [havailable, CommandKind.isExpression, hσ rfl]
  all_goals simp [havailable, CommandKind.isExpression]

/-- A statement goes into the open script, and a hat starts one where no nesting block is open. -/
theorem Sheet.command_header {c : Command} (hkind : c.kind.isHeader = true)
    (havailable : c.isAvailableOn target = true) {σ : Sheet Unit}
    (hσ : if c.kind = .hat then σ.isNested = false else σ.current.isSome = true)
    (read : Reading.Reader) (n : Nat) (tokens raw : List String) :
    σ.command read target n c tokens raw = σ.statement read n c tokens raw := by
  by_cases hhat : c.kind = .hat
  · rw [if_pos hhat] at hσ
    rw [Sheet.command_statement hkind havailable fun _ ↦ hσ, if_pos hhat]
  · rw [if_neg hhat] at hσ
    rw [Sheet.command_statement hkind havailable fun h ↦ absurd h hhat, if_neg hhat,
      Sheet.ensureScript_of_isSome hσ]

/-- A command that does not compare has slots that do not. -/
theorem Catalog.IsRegular.isComparison_eq_false (hcat : catalog.IsRegular) {c : Command}
    (hc : c ∈ catalog.commands.values) (hkind : c.kind.makesBlock = true)
    (hexpr : c.kind.isExpression = false) : Opcode.isComparison c.opcode = false := by
  refine Bool.eq_false_iff.2 fun hcompares ↦ ?_
  obtain ⟨name, hname⟩ := hcat.eq_comparison hc hkind hcompares
  have hboolean : c.kind = .boolean := congrArg Command.kind hname
  rw [hboolean] at hexpr
  cases hexpr

/-- Only a nesting block is written with the header of another one. -/
theorem Catalog.IsRegular.header_of_ne (hcat : catalog.IsRegular) {c : Command}
    (hc : c ∈ catalog.commands.values) (hkind : c.kind.makesBlock = true)
    (hnesting : c.kind ≠ .nesting) : c.header = c := by
  unfold Command.header
  split
  · next helse =>
    obtain rfl := hcat.eq_essential hc hkind (d := .ifElse) (by decide) (by rw [helse]; rfl)
    exact absurd rfl hnesting
  · rfl

theorem Command.isAvailableOn_header {c : Command} (h : c.isAvailableOn target = true) :
    c.header.isAvailableOn target = true := by
  unfold header
  split
  · cases target <;> decide
  · exact h

section

variable {blocks : Dict Block} {b : Block} {node : Node} {s : Setting} {owner : BlockId}
  {front : Slots BlockId}

/-- The values in the inputs of a line are read back, since each is shorter than the line. -/
theorem Reading.recitesAll_of_held (hcat : catalog.IsRegular) (hsymbols : symbols.AreOwn)
    {specs : List InputSpec} (hfill : front.Fill catalog target false specs [])
    (hheld : front.Held ⟨blocks, symbols⟩ owner b.inputs)
    (hlegible : front.IsLegible catalog symbols node.opcode) (n bound : Nat)
    (hbound : ∀ text ∈ front.texts catalog symbols .line specs, text.length < bound) :
    RecitesAll catalog symbols (expression catalog target n bound) front := by
  have hvalues : front.EachValue fun v ↦ v ≠ .nil → v.IsValue catalog target :=
    hfill.each fun v hv _ ↦ hv
  refine (((Listing.eachValue_held hheld (Nat.le_refl _) hvalues).and hlegible.each).and
    (hfill.length_speech hbound)).mono ?_
  rintro v ⟨⟨⟨hvalue, ⟨sv, hheld⟩, -⟩, hlegible⟩, hlength⟩
  by_cases hnil : v = .nil
  · exact ⟨fun hne ↦ absurd hnil hne, fun hne ↦ absurd hnil hne⟩
  · exact (hvalue hnil).recalls hcat hsymbols n hnil bound sv hheld hlegible hlength

/-- **A written header is read as the block it was written for.** The two conditionals share the
header of the first. -/
theorem Sheet.line_header (hcat : catalog.IsRegular) (hsymbols : symbols.AreOwn) {c : Command}
    (hc : c ∈ catalog.commands.values) (hkind : c.kind.isHeader = true)
    (havailable : c.isAvailableOn target = true) (hnode : node.Fits c)
    (hfill : front.Fill catalog target (Opcode.isComparison c.opcode) c.inputs [])
    (hlegible : front.IsLegible catalog symbols node.opcode) (hsaid : b.Says symbols node s)
    (hheld : front.Held ⟨blocks, symbols⟩ owner b.inputs) (n depth : Nat) {σ : Sheet Unit}
    (hσ : if c.kind = .hat then σ.isNested = false else σ.current.isSome = true) :
    ∃ node' slots', σ.line catalog target ⟨n, Listing.indent depth
        (Listing.commandLine c.header.name
          (node.fieldTexts symbols c.fields ++ front.texts catalog symbols .line c.inputs))⟩ =
        .ok (σ.place c.header n () node' slots') ∧
      node'.opcode = c.header.opcode ∧ (∀ r ∈ node'.asked, symbols.Declares r) ∧
        front.Recall symbols false slots' := by
  obtain ⟨hblock, hexpr, hdefine, hcall⟩ := CommandKind.isHeader_facts hkind
  obtain ⟨hheader, hfields, hinputs, hkinds⟩ := hcat.header_eq hc hblock
  rw [hcat.isComparison_eq_false hc hblock hexpr] at hfill
  have hregular := hcat.regular c hc
  obtain ⟨raw, hsaidIn⟩ := node.exists_words hcat hc hexpr hfill hlegible
  -- fields and inputs are words, so the line is split where they were joined
  have hrows : ∀ w ∈ node.fieldTexts symbols c.fields ++ front.texts catalog symbols .line c.inputs,
      IsRow w.toList := by
    intro w hw
    rcases List.mem_append.1 hw with hw | hw
    · obtain ⟨spec, -, rfl⟩ := List.mem_map.1 hw
      exact (Token.isWord_format _).isRow
    · exact front.texts_isRow .line hregular.inputs
        (hfill.each fun v hv ↦ hv.speech_isRow hcat) w hw
  rw [Sheet.line_words (hcat.regular _ hheader).name (hcat.resolve _ hheader) hrows hsaidIn.pieces
      (hsaidIn.line _),
    Sheet.command_header (hkinds ▸ hkind) (Command.isAvailableOn_header havailable) (hkinds ▸ hσ)]
  have hread := Reading.recitesAll_of_held hcat hsymbols hfill hheld hlegible n
    (catalog.nestingBound (Listing.commandLine c.header.name
      (node.fieldTexts symbols c.fields ++ front.texts catalog symbols .line c.inputs)).length)
    (fun text htext ↦ ?_)
  · obtain ⟨slots', hslots', hrecall⟩ := Reading.inputs_recall hcat hsymbols c.header.name
      hregular.inputs hfill hlegible hread hsaidIn.inputs
    refine ⟨statementNode c.header (raw.map Token.unquote) raw, slots', ?_, rfl, ?_, hrecall⟩
    · rw [Sheet.statement, hinputs, hslots']
      rfl
    · have hnone : (statementNode c.header (raw.map Token.unquote) raw).procedure = none := by
        rw [statementNode, hkinds, if_neg hcall]
      rw [Node.asked_of_none hnone, statementNode, hfields]
      exact Reading.fields_declare hsymbols hregular hnode hsaid hsaidIn.fields
  · have hmem : text ∈ c.header.name ::
        (node.fieldTexts symbols c.fields ++ front.texts catalog symbols .line c.inputs) :=
      List.mem_cons_of_mem _ (List.mem_append_right _ htext)
    have hle := Text.length_le_join hmem
    rw [Listing.commandLine, Catalog.nestingBound]
    omega

end

/-! ### Procedures -/

/-- The name of the procedure that a line names with this text behind its first word. -/
def Sheet.reread (name : String) : String :=
  signature (Token.tokenize (Text.trim name))

/-- The tokens of a line that goes on with a text of any kind. -/
theorem Token.splitLine_trim_append {word : String} (h : IsPiece word.toList)
    (hword : ∀ c ∈ word.toList, Text.isWhite c = false) (rest : String) :
    splitLine (Text.trim (word ++ " " ++ rest)) = word :: splitLine (Text.trim rest) := by
  have hcs : (word ++ " " ++ rest).toList = word.toList ++ ' ' :: rest.toList := by simp
  simp only [splitLine, Text.trim, hcs, String.toList_ofList, Chars.splitLine_trim_append h hword,
    List.map_cons, String.ofList_toList]

/-- A line is read without the white space around it. -/
theorem Sheet.line_of_trim {text text' : String} (h : Text.trim text = Text.trim text') (n : Nat)
    (σ : Sheet Unit) :
    σ.line catalog target ⟨n, text⟩ = σ.line catalog target ⟨n, text'⟩ := by
  simp only [Sheet.line, h]

/-- A line with a text of any kind after the word of a command is followed as that command. -/
theorem Sheet.line_signature (hcat : catalog.IsRegular) {c : Command}
    (hc : c ∈ catalog.commands.values) (name : String) (n depth : Nat) (σ : Sheet Unit) :
    ∃ read, σ.line catalog target ⟨n, Listing.indent depth (c.name ++ " " ++ name)⟩ =
      σ.command read target n c (Token.tokenize (Text.trim name))
        (Token.splitLine (Text.trim name)) := by
  have hname := (hcat.regular c hc).name
  have hword := Chars.isWord_identifier hname
  have hchars := Chars.isWordChar_of_identifier hname
  have hline : c.name ++ " " ++ name = Listing.commandLine c.name [name] :=
    String.toList_inj.1 (by simp [Listing.commandLine, Text.toList_join,
      List.intercalate_cons_cons])
  obtain ⟨tail, -, htrim⟩ :=
    Listing.exists_trim_commandLine hchars hword.ne_nil depth [name]
  have htext : (c.name ++ String.ofList tail).toList = c.name.toList ++ tail := by simp
  have hidem : Chars.trim (c.name ++ String.ofList tail).toList =
      (c.name ++ String.ofList tail).toList := by
    rw [htext, ← htrim, Chars.trim_trim]
  -- what is left of the line is trimmed, so its words are the name and those of the signature
  have htrimmed : c.name ++ String.ofList tail = Text.trim (c.name ++ " " ++ name) := by
    refine String.toList_inj.1 ?_
    rw [htext, ← htrim, ← hline, Listing.trim_toList_indent, Text.trim, String.toList_ofList]
  have hsplit : Token.splitLine (c.name ++ String.ofList tail) =
      c.name :: Token.splitLine (Text.trim name) := by
    rw [htrimmed]
    exact Token.splitLine_trim_append hword.isPiece
      (fun d hd ↦ not_isWhite_of_isWordChar (hchars d hd)) name
  refine ⟨_, Eq.trans (Sheet.line_of_trim ?_ n σ)
    (Sheet.line_command hname (hcat.resolve c hc) hidem hsplit n depth σ)⟩
  rw [Listing.trim_indent depth hidem, Text.trim, hline, htrim, String.ofList_append,
    String.ofList_toList]

/-- A written call is read as one, of the procedure that its line names. -/
theorem Sheet.line_call (hcat : catalog.IsRegular) (name : String) (n depth : Nat)
    (σ : Sheet Unit) :
    σ.line catalog target ⟨n, Listing.indent depth ("call " ++ name)⟩ = .ok (σ.ensureScript.extend
      (.cons () { opcode := Opcode.call, procedure := some (reread name) } .nil .nil)) := by
  have hc : Command.procedureCall ∈ catalog.commands.values := hcat.essential _ (by decide)
  have havailable : Command.procedureCall.isAvailableOn target = true := by
    cases target <;> decide
  obtain ⟨read, hline⟩ : ∃ read, σ.line catalog target
      ⟨n, Listing.indent depth ("call" ++ " " ++ name)⟩ = σ.command read target n .procedureCall
        (Token.tokenize (Text.trim name)) (Token.splitLine (Text.trim name)) :=
    Sheet.line_signature hcat hc name n depth σ
  refine hline.trans ?_
  have hkind : Command.procedureCall.kind = .call := rfl
  unfold Sheet.command
  simp [hkind, havailable, CommandKind.isExpression]
  rfl

/-- A written definition is read as one, of the procedure that its line names. -/
theorem Sheet.line_define (hcat : catalog.IsRegular) (name : String) (n depth : Nat)
    {σ : Sheet Unit} (hσ : σ.isNested = false) :
    σ.line catalog target ⟨n, Listing.indent depth ("define " ++ name)⟩ =
      .ok (σ.start (definition () () (reread name))) := by
  have hc : Command.definition ∈ catalog.commands.values := hcat.essential _ (by decide)
  have havailable : Command.definition.isAvailableOn target = true := by
    cases target <;> decide
  obtain ⟨read, hline⟩ : ∃ read, σ.line catalog target
      ⟨n, Listing.indent depth ("define" ++ " " ++ name)⟩ = σ.command read target n .definition
        (Token.tokenize (Text.trim name)) (Token.splitLine (Text.trim name)) :=
    Sheet.line_signature hcat hc name n depth σ
  refine hline.trans ?_
  have hkind : Command.definition.kind = .define := rfl
  unfold Sheet.command
  simp [hkind, havailable, CommandKind.isExpression, hσ]
  rfl

end BlockScript
