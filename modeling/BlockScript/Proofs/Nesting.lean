import BlockScript.Proofs.Acceptance
import BlockScript.Proofs.Grammar

/-!
# When lines can be read, and where reading stops

The lines of a target are read to their end exactly if each of them is acceptable and their words
are a program of the grammar. Otherwise reading stops at the first line that is not acceptable or
that no program can go on with, or, if there is none, the innermost nesting block that is left open
is named (`Script.run_lines_outcome`).

Of the sheet that the lines are read into, only the nesting decides which line can follow
(`Sheet.nesting`), and it changes with each line as the reader of the grammar says
(`Sheet.nesting_line`). That the words of lines which were read are a program comes from their
parse.
-/

namespace BlockScript

open Grammar

/-! ### Words of lines -/

/-- What a command means to the lines around it, unless it is an expression. -/
def Command.word? (c : Command) : Option Word :=
  match c.kind with
  | .declare => some .declare
  | .hat => some .start
  | .define => some .start
  | .stack => some .plain
  | .call => some .plain
  | .nesting => some (.nest c.isConditional)
  | .otherwise => some .otherwise
  | .finish => some .finish
  | .reporter => none
  | .boolean => none

/-- What a line means to the lines around it, if it gives a command. -/
def SourceLine.word? (catalog : Catalog) (s : SourceLine) : Option Word :=
  match s.tokens with
  | [] => none
  | first :: _ => (catalog.resolve? (Token.unquote first)).bind Command.word?

/-- The words of lines, of which blank lines and comments have none. -/
def words (catalog : Catalog) (sources : List SourceLine) : List Word :=
  sources.filterMap (·.word? catalog)

section

variable {catalog : Catalog} {target : TargetKind} {s : SourceLine} {sources more : List SourceLine}

/-- The word of a line is that of the command it gives. -/
theorem SourceLine.Gives.word? {c : Command} {raw : List String} (h : s.Gives catalog c raw) :
    s.word? catalog = c.word? := by
  obtain ⟨first, htokens, hc⟩ := h
  simp only [SourceLine.word?, htokens, hc, Option.bind_some]

/-- The words of lines come in the order of the lines. -/
@[simp]
theorem words_append :
    words catalog (sources ++ more) = words catalog sources ++ words catalog more :=
  List.filterMap_append

/-- A line with a word gives the first word. -/
theorem words_cons {w : Word} (h : s.word? catalog = some w) :
    words catalog (s :: sources) = w :: words catalog sources :=
  List.filterMap_cons_some h

/-- No lines have no words. -/
@[simp]
theorem words_nil : words catalog [] = [] := rfl

/-- A single line with a word gives that word. -/
theorem words_singleton {w : Word} (h : s.word? catalog = some w) : words catalog [s] = [w] :=
  words_cons h

/-- A line that ends a block has the word for it. -/
theorem SourceLine.Has.finish (h : s.Has catalog .finish) : s.word? catalog = some .finish := by
  obtain ⟨c, raw, hs, hkind⟩ := h
  simp only [hs.word?, Command.word?, hkind]

/-- A line that starts the second branch has the word for it. -/
theorem SourceLine.Has.otherwise (h : s.Has catalog .otherwise) :
    s.word? catalog = some .otherwise := by
  obtain ⟨c, raw, hs, hkind⟩ := h
  simp only [hs.word?, Command.word?, hkind]

/-- A line that makes a block has the word of its command. -/
theorem SourceLine.Makes.word? {c : Command} {node : Node} {slots : Slots Unit}
    (h : s.Makes catalog target c node slots) : s.word? catalog = c.word? := by
  obtain ⟨raw, hs, -⟩ := h
  exact hs.word?

/-- A line that makes no block is a declaration to the lines around it, or nothing. -/
theorem SourceLine.IsIdle.words (h : s.IsIdle catalog) :
    words catalog [s] = [] ∨ words catalog [s] = [.declare] := by
  rcases h with h | ⟨c, raw, hs, hkind⟩
  · refine .inl (List.filterMap_cons_none ?_)
    simp only [SourceLine.word?, h]
  · refine .inr (words_singleton ?_)
    simp only [hs.word?, Command.word?, hkind]

/-! ### The words of a parse -/

namespace Parse

mutual

/-- The words of a statement are a statement of the grammar. -/
theorem Statement.isStatement : ∀ {lines : List SourceLine} {tree : Tree},
    Statement catalog target lines tree → IsStatement (words catalog lines)
  | _, _, @Statement.plain _ _ s c _ _ hs hkind => by
    have hword : c.word? = some .plain := by
      rcases hkind with hkind | hkind <;> simp only [Command.word?, hkind]
    rw [words_singleton (hs.word?.trans hword)]
    exact .plain
  | _, _, @Statement.nest _ _ header last c _ _ lines _ hheader hkind hbody hlast => by
    have hword : c.word? = some (.nest c.isConditional) := by simp only [Command.word?, hkind]
    rw [words_cons (hheader.word?.trans hword), words_append, words_singleton hlast.finish]
    exact .nest _ hbody.isBody
  | _, _, @Statement.choose _ _ header middle last c _ _ lines more _ _ hheader hkind hconditional
      hbody hmiddle hsecond hlast => by
    have hword : c.word? = some (.nest true) := by simp only [Command.word?, hkind, hconditional]
    rw [words_cons (hheader.word?.trans hword), words_append, words_cons hmiddle.otherwise,
      words_append, words_singleton hlast.finish]
    exact .choose hbody.isBody hsecond.isBody

/-- The words of a body are a body of the grammar. -/
theorem Body.isBody : ∀ {lines : List SourceLine} {tree : Tree},
    Body catalog target lines tree → IsBody (words catalog lines)
  | _, _, .nil => .nil
  | _, _, .idle h hs => by
    rw [words_append]
    rcases hs.words with hnone | hdeclare
    · rw [hnone, List.append_nil]
      exact h.isBody
    · rw [hdeclare]
      exact h.isBody.declare
  | _, _, .statement h hmore => by
    rw [words_append]
    exact h.isBody.statement hmore.isStatement

end

/-- The words of scripts are a program of the grammar, open where the scripts are. -/
theorem Scripts.isProgram {lines : List SourceLine} {closed : List Tree} {current : Option Tree}
    (h : Scripts catalog target lines closed current) :
    IsProgram (words catalog lines) current.isSome := by
  induction h with
  | nil => exact .nil
  | idle h hs ih =>
    rw [words_append]
    rcases hs.words with hnone | hdeclare
    · rwa [hnone, List.append_nil]
    · rw [hdeclare]
      exact ih.declare
  | @hat lines closed current s c node slots h hs hkind ih =>
    have hword : c.word? = some .start := by simp only [Command.word?, hkind]
    rw [words_append, words_singleton (hs.word?.trans hword)]
    exact ih.start
  | @define lines closed current s c raw h hs hkind ih =>
    have hword : c.word? = some .start := by simp only [Command.word?, hkind]
    rw [words_append, words_singleton (hs.word?.trans hword)]
    exact ih.start
  | implicit h hmore ih =>
    rw [words_append]
    exact ih.statement hmore.isStatement
  | statement h hmore ih =>
    rw [words_append]
    exact ih.statement hmore.isStatement
  | finish h hs ih =>
    rw [words_append, words_singleton hs.finish]
    exact ih.finish

end Parse

/-! ### What was read is a beginning -/

/-- The header is the innermost one that is left open: after it there is nothing but its body. -/
def SourceLine.IsUnclosed (catalog : Catalog) (header : SourceLine)
    (after : List SourceLine) : Prop :=
  ∃ conditional, header.word? catalog = some (.nest conditional) ∧
    (IsBody (words catalog after) ∨
      conditional = true ∧ ∃ body second, IsBody body ∧ IsBody second ∧
        words catalog after = body ++ .otherwise :: second)

namespace Parse

/-- An opened block is left open by the lines after its header. -/
theorem Opened.isUnclosed {before : Tree} {header : SourceLine} {lines : List SourceLine}
    {layer : Layer Unit} {chain : Tree}
    (h : Opened catalog target before header lines layer chain) :
    header.IsUnclosed catalog lines ∧ layer.line = header.line := by
  cases h with
  | @first c node slots lines body hheader hkind hbody =>
    have hword : c.word? = some (.nest c.isConditional) := by simp only [Command.word?, hkind]
    exact ⟨⟨_, hheader.word?.trans hword, .inl hbody.isBody⟩, rfl⟩
  | @second middle c node slots lines more body second branches hheader hkind hconditional hbody
      hmiddle hsecond hbranches =>
    have hword : c.word? = some (.nest true) := by simp only [Command.word?, hkind, hconditional]
    refine ⟨⟨true, hheader.word?.trans hword, .inr ⟨rfl, _, _, hbody.isBody, hsecond.isBody, ?_⟩⟩,
      rfl⟩
    rw [words_append, words_cons hmiddle.otherwise]

end Parse

/-- A nesting block that is left open becomes a statement when it gets the rest of its body and is
closed. -/
theorem SourceLine.IsUnclosed.isStatement {header : SourceLine} {after : List SourceLine}
    (h : header.IsUnclosed catalog after) {body : List Word} (hbody : IsBody body) :
    IsStatement (words catalog (header :: after) ++ body ++ [.finish]) := by
  obtain ⟨conditional, hword, hafter | ⟨rfl, first, second, hfirst, hsecond, hafter⟩⟩ := h
  · rw [words_cons hword, List.cons_append, List.cons_append]
    exact .nest conditional (hafter.append hbody)
  · rw [words_cons hword, hafter]
    have hstatement := IsStatement.choose hfirst (hsecond.append hbody)
    simpa using hstatement

/-- Lines that were read, and some more that can be nested, can be completed to a program. -/
theorem Parse.Reached.isBeginning {lines : List SourceLine} {σ : Sheet Unit}
    (h : Reached catalog target lines σ) : ∀ {body : List Word}, IsBody body →
      IsBeginning (words catalog lines ++ body) := by
  induction h with
  | flat h hclosed hcurrent =>
    intro body hbody
    obtain ⟨isOpen, hprogram⟩ := h.isProgram.append hbody
    exact ⟨[], isOpen, by rwa [List.append_nil]⟩
  | @nested front lines header σ τ o layer chain h ho hopened hclosed hcurrent ih =>
    intro body hbody
    -- the innermost nesting block is closed first
    have hstatement := hopened.isUnclosed.1.isStatement hbody
    obtain ⟨rest, isOpen, hprogram⟩ := ih (IsBody.nil.statement hstatement)
    refine ⟨.finish :: rest, isOpen, ?_⟩
    rw [words_append]
    simpa using hprogram

/-! ### Where reading stops -/

namespace Reading

/-- An error names this line. -/
def Located {β : Type} (line : Nat) (x : Result β) : Prop :=
  ∀ e, x = .error e → e.line = line

namespace Located

variable {β γ : Type} {line : Nat}

/-- A success names no line. -/
theorem ok (b : β) : Located line (.ok b) := fun _ h ↦ by cases h

/-- A fault names its line. -/
theorem fail (fault : Fault) : Located line (Reading.fail line fault : Result β) :=
  fun _ h ↦ by cases h; rfl

/-- A run names the line when both of its steps do. -/
theorem bind {x : Result β} {f : β → Result γ} (hx : Located line x)
    (hf : ∀ b, Located line (f b)) : Located line (x >>= f) := by
  cases x with
  | error e => exact fun e' h ↦ hx e' (by cases h; rfl)
  | ok b => exact hf b

/-- A mapped run names the line of the run. -/
theorem map {x : Result β} (hx : Located line x) (f : β → γ) : Located line (f <$> x) := by
  rw [← bind_pure_comp]
  exact hx.bind fun b ↦ ok _

end Located

variable {read : Reader} {line : Nat} (hread : ∀ text, Located line (read text))

include hread

/-- A fault in an operand names the line. -/
theorem located_operand (text : String) : Located line (operand read text) := by
  unfold operand
  split
  · exact (hread _).bind fun _ ↦ .ok _
  · exact .ok _

/-- A fault in a comparison names the line. -/
theorem located_comparison (opcode left right : String) :
    Located line (comparison read opcode left right) :=
  (located_operand hread left).bind fun _ ↦ (located_operand hread right).bind fun _ ↦ .ok _

/-- A fault in a comparison in infix form names the line. -/
theorem located_comparisonOf (c : Comparison) : Located line (comparisonOf read c) := by
  unfold comparisonOf
  split
  · exact located_comparison hread _ _ _
  · exact located_comparison hread _ _ _
  · exact located_comparison hread _ _ _
  · exact located_comparison hread _ _ _
  · exact (located_comparison hread _ _ _).map _
  · exact (located_comparison hread _ _ _).map _
  · exact (located_comparison hread _ _ _).map _

/-- A fault in a condition names the line. -/
theorem located_condition (raw : String) : Located line (condition read raw) := by
  unfold condition
  dsimp only
  split
  · exact hread _
  · split
    · exact located_comparisonOf hread _
    · exact .ok _

/-- A fault in an input names the line. -/
theorem located_input (command : String) (args : Arguments) (spec : InputSpec) :
    Located line (input read command args spec) := by
  unfold input menuSlot literalSlot
  split
  · split
    · exact (hread _).bind fun _ ↦ .ok _
    · exact .ok _
  · exact (located_condition hread _).map _
  · split
    · exact (hread _).bind fun _ ↦ .ok _
    · exact .ok _

/-- A fault in one of the inputs names the line. -/
theorem located_inputs (command : String) (args : Arguments) (specs : List InputSpec) :
    Located line (inputs read command args specs) := by
  induction specs with
  | nil => exact .ok _
  | cons spec specs ih =>
    exact (located_input hread command args spec).bind fun _ ↦ ih.bind fun _ ↦ .ok _

omit hread

/-- A fault in an expression names the line, however deep it is nested. -/
theorem located_expression (catalog : Catalog) (target : TargetKind) (line bound : Nat)
    (text : String) : Located line (expression catalog target line bound text) := by
  induction bound generalizing text with
  | zero => exact .fail _
  | succ bound ih =>
    show Located line (call _ catalog target line text)
    unfold call
    split
    · exact .fail _
    · split
      · exact .fail _
      · exact (located_inputs ih _ _ _).bind fun _ ↦ .ok _

end Reading

end

/-! ### From line to line -/

/-- What the reading of lines relies on in a catalog. -/
structure Catalog.IsOrdinary (catalog : Catalog) : Prop where
  /-- Only conditionals have two sub-chains. -/
  branches : catalog.HasUsualBranches
  /-- No default is an expression. -/
  defaults : catalog.HasPlainDefaults
  /-- Definitions have no inputs. -/
  definitions : ∀ c ∈ catalog.commands.values, c.kind = .define → c.inputs = []

/-- The built-in catalog is one that reading can rely on. -/
theorem Catalog.builtin_isOrdinary : builtin.IsOrdinary where
  branches := builtin_hasUsualBranches
  defaults := builtin_hasPlainDefaults
  definitions := by
    have hall : ∀ c ∈ builtinCommands, c.kind = .define → c.inputs = [] := by decide +kernel
    exact fun c hc ↦ hall c (mem_builtinCommands hc)

/-- Whether a body can still be split. -/
def Branches.canSplit (b : Branches) : Bool := b.enterElse.toBool

/-- A block that took an else could be split before and cannot be split again. -/
theorem Branches.canSplit_enterElse {b next : Branches} (h : b.enterElse = .ok next) :
    b.canSplit = true ∧ next.canSplit = false := by
  unfold canSplit
  cases b with
  | single body => cases h
  | ifThen body =>
    obtain rfl := Except.ok.inj h
    exact ⟨rfl, rfl⟩
  | ifElse body otherwise inElse =>
    cases inElse with
    | true => cases h
    | false =>
      obtain rfl := Except.ok.inj h
      exact ⟨rfl, rfl⟩

/-- The usual branches can be split for a conditional only. -/
theorem Command.canSplit_usualBranches (c : Command) :
    c.usualBranches.canSplit = c.isConditional := by
  unfold usualBranches isConditional
  by_cases hthen : c.opcode = Opcode.ifThen
  · simp [hthen, Branches.canSplit, Branches.enterElse, Except.toBool]
  · by_cases helse : c.opcode = Opcode.ifElse
    · simp [helse, Branches.canSplit, Branches.enterElse, Except.toBool, Opcode.ifThen,
        Opcode.ifElse]
    · simp [hthen, helse, Branches.canSplit, Branches.enterElse, Except.toBool]

/-- The nesting of the open script. -/
def Sheet.nesting (σ : Sheet Unit) : Nesting :=
  σ.current.map fun o ↦ o.layers.map fun l ↦ l.branches.canSplit

section

variable {catalog : Catalog} {target : TargetKind} {s : SourceLine} {c : Command}
  {raw : List String}

/-- The arguments of a line fit into the line. -/
theorem SourceLine.Gives.extent_le (h : s.Gives catalog c raw) :
    extent raw ≤ (Text.trim s.text).length := by
  obtain ⟨first, htokens, -⟩ := h
  unfold tokens at htokens
  dsimp only at htokens
  split at htokens
  · cases htokens
  · have hsplit := Token.extent_splitLine (Text.trim s.text)
    rw [htokens, extent_cons] at hsplit
    omega

/-- The inputs of a line are read if the expressions in them are sound. -/
theorem SourceLine.Gives.inputs_eq_ok_iff (hcat : catalog.IsOrdinary) (h : s.Gives catalog c raw) :
    (∃ slots, Reading.inputs (s.reader catalog target) c.name
        (.ofLine (raw.map Token.unquote) raw) c.inputs = .ok slots) ↔
      ∀ text ∈ c.embedded (.ofLine (raw.map Token.unquote) raw),
        Expression.IsSound catalog target text := by
  have hroom := h.extent_le
  rw [Reading.inputs_eq_ok_iff]
  refine forall₂_congr fun text htext ↦ Reading.expression_eq_ok_iff hcat.defaults ?_
  have hwritten : (Arguments.ofLine (raw.map Token.unquote) raw).IsWritten := rfl
  obtain ⟨hlength, -⟩ := Command.length_embedded hcat.defaults h.mem_values hwritten htext
  have hextent : (Arguments.ofLine (raw.map Token.unquote) raw).room = extent raw := rfl
  show text.length < (Text.trim s.text).length + 1 + _
  omega

namespace Sheet

variable {σ : Sheet Unit}

/-- An end acts on the nesting of a sheet as its word does. -/
theorem nesting_finish (σ : Sheet Unit) (line : Nat) :
    (σ.finish line).toOption.map nesting = Nesting.step σ.nesting .finish := by
  unfold finish nesting
  rcases σ.current with - | ⟨- | ⟨l, ls⟩, chain⟩ <;> rfl

/-- An else acts on the nesting of a sheet as its word does. -/
theorem nesting_enterElse (σ : Sheet Unit) (line : Nat) :
    (σ.enterElse line).toOption.map nesting = Nesting.step σ.nesting .otherwise := by
  unfold enterElse nesting
  rcases σ.current with - | ⟨- | ⟨l, ls⟩, chain⟩
  · rfl
  · rfl
  · show _ = Nesting.step (some (l.branches.canSplit :: ls.map fun l ↦ l.branches.canSplit)) _
    dsimp only
    cases hbranches : l.branches.enterElse with
    | error fault =>
      have hsplit : l.branches.canSplit = false := by rw [Branches.canSplit, hbranches]; rfl
      rw [Layer.enterElse, hbranches, hsplit]
      rfl
    | ok branches =>
      obtain ⟨hsplit, hnext⟩ := Branches.canSplit_enterElse hbranches
      rw [Layer.enterElse, hbranches, hsplit]
      show some (some (branches.canSplit :: _)) = _
      rw [hnext]
      rfl

/-- A script may start where no block is open. -/
theorem step_start (σ : Sheet Unit) :
    Nesting.step σ.nesting .start = if σ.isNested then none else some (some []) := by
  unfold isNested nesting
  rcases σ.current with - | ⟨- | ⟨l, ls⟩, chain⟩ <;> rfl

/-- A script that starts by itself has no open block. -/
theorem nesting_ensureScript (σ : Sheet Unit) :
    σ.ensureScript.nesting = some (σ.nesting.getD []) := by
  unfold ensureScript nesting
  cases hcurrent : σ.current with
  | none => rfl
  | some o => simp [hcurrent]

/-- A statement nests if its command does, and a hat starts afresh. -/
theorem nesting_place (σ : Sheet Unit) (c : Command) (line : Nat) (node : Node)
    (slots : Slots Unit) : (σ.place c line () node slots).nesting =
      match c.kind with
      | .hat => some []
      | .nesting => σ.nesting.map ((Branches.ofCommand c).canSplit :: ·)
      | _ => σ.nesting := by
  unfold place nesting
  cases c.kind <;> cases σ.current <;> rfl

/-- A declaration leaves the nesting alone. -/
theorem nesting_declare (σ : Sheet Unit) (line : Nat) {name : String}
    (hname : name = "make_var" ∨ name = "make_list" ∨ name = "make_broadcast")
    (args : List String) :
    (σ.declare line name args).toOption.map nesting = some σ.nesting := by
  have hsome : (Build.declaration? name args).isSome := Build.declaration?_isSome.2 hname
  obtain ⟨⟨kind, initial⟩, hdeclaration⟩ := Option.isSome_iff_exists.1 hsome
  rw [declare, hdeclaration]
  rfl

/-- A statement whose expressions are sound is read, and what they say does not matter for the
nesting. -/
theorem nesting_statement (hcat : catalog.IsOrdinary) (σ : Sheet Unit) (hs : s.Gives catalog c raw)
    (hsound : ∀ text ∈ c.embedded (.ofLine (raw.map Token.unquote) raw),
      Expression.IsSound catalog target text) :
    (σ.statement (s.reader catalog target) s.line c (raw.map Token.unquote) raw).toOption.map
      nesting = some (match c.kind with
        | .hat => some []
        | .nesting => σ.nesting.map ((Branches.ofCommand c).canSplit :: ·)
        | _ => σ.nesting) := by
  obtain ⟨slots, hslots⟩ := (hs.inputs_eq_ok_iff hcat).2 hsound
  rw [statement, hslots]
  exact congrArg some (nesting_place σ c s.line _ slots)

/-- A line whose command may stand there changes the nesting as its word says, or stops the reader
if its word cannot follow. -/
theorem nesting_command (hcat : catalog.IsOrdinary) (σ : Sheet Unit) (hs : s.Gives catalog c raw)
    (husable : c.IsUsable catalog target raw) {w : Word} (hw : c.word? = some w) :
    (σ.command (s.reader catalog target) target s.line c (raw.map Token.unquote) raw).toOption.map
      nesting = Nesting.step σ.nesting w := by
  unfold Command.IsUsable at husable
  unfold Command.word? at hw
  unfold command
  -- one case for each kind of command, as its word says what to do with the nesting
  cases hkind : c.kind with
  | finish =>
    simp only [hkind, Option.some.injEq] at hw ⊢
    exact hw ▸ nesting_finish σ s.line
  | otherwise =>
    simp only [hkind, Option.some.injEq] at hw ⊢
    exact hw ▸ nesting_enterElse σ s.line
  | declare =>
    simp only [hkind, Option.some.injEq] at hw husable ⊢
    subst hw
    exact nesting_declare σ s.line husable _
  | define =>
    simp only [hkind, Option.some.injEq] at hw husable ⊢
    obtain ⟨hexpression, havailable, -⟩ := husable
    subst hw
    rw [step_start, havailable, hexpression]
    cases σ.isNested <;> rfl
  | hat =>
    simp only [hkind, Option.some.injEq] at hw husable ⊢
    obtain ⟨hexpression, havailable, hsound⟩ := husable
    subst hw
    rw [step_start, havailable, hexpression]
    cases σ.isNested with
    | true => rfl
    | false =>
      refine (nesting_statement hcat σ hs hsound).trans ?_
      rw [hkind]
      rfl
  | stack | call =>
    simp only [hkind, Option.some.injEq] at hw husable ⊢
    obtain ⟨hexpression, havailable, hsound⟩ := husable
    subst hw
    rw [havailable, hexpression]
    refine (nesting_statement hcat σ.ensureScript hs hsound).trans ?_
    rw [hkind]
    exact congrArg some σ.nesting_ensureScript
  | nesting =>
    simp only [hkind, Option.some.injEq] at hw husable ⊢
    obtain ⟨hexpression, havailable, hsound⟩ := husable
    subst hw
    rw [havailable, hexpression]
    refine (nesting_statement hcat σ.ensureScript hs hsound).trans ?_
    rw [hkind, hcat.branches c hs.mem_values hkind, c.canSplit_usualBranches,
      σ.nesting_ensureScript]
    rfl
  | reporter | boolean => simp [hkind] at hw

/-- A command is only followed if it may stand there. -/
theorem isUsable_of_command (hcat : catalog.IsOrdinary) {σ τ : Sheet Unit}
    (hs : s.Gives catalog c raw) (h : σ.command (s.reader catalog target) target s.line c
      (raw.map Token.unquote) raw = .ok τ) : c.IsUsable catalog target raw := by
  have hsound : ∀ {σ τ : Sheet Unit},
      σ.statement (s.reader catalog target) s.line c (raw.map Token.unquote) raw = .ok τ →
        ∀ text ∈ c.embedded (.ofLine (raw.map Token.unquote) raw),
          Expression.IsSound catalog target text := by
    intro σ τ h
    obtain ⟨slots, hslots, -⟩ := Reading.bind_eq_ok.1 h
    exact (hs.inputs_eq_ok_iff hcat).1 ⟨slots, hslots⟩
  unfold Command.IsUsable
  obtain ⟨hkind, -⟩ | ⟨hkind, -⟩ | ⟨hkind, h⟩ | ⟨havailable, h⟩ := command_eq_ok h
  · rw [hkind]
    trivial
  · rw [hkind]
    trivial
  · rw [hkind]
    obtain ⟨kind, initial, hdeclaration, -⟩ := declare_eq_ok h
    exact Build.declaration?_isSome.1 (by rw [hdeclaration]; rfl)
  -- what makes a block is usable when it is available and its expressions are sound
  obtain ⟨hkind, -⟩ | ⟨hkind, -, h⟩ | ⟨(hkind | hkind) | hkind, h⟩ := h <;> rw [hkind]
  · -- a definition has no inputs
    have hnone : c.embedded (.ofLine (raw.map Token.unquote) raw) = [] := by
      rw [Command.embedded, hcat.definitions c hs.mem_values hkind]
      rfl
    refine ⟨rfl, havailable, fun text htext ↦ ?_⟩
    rw [hnone] at htext
    cases htext
  all_goals exact ⟨rfl, havailable, hsound h⟩

/-- A line is only read if it is acceptable. -/
theorem isAcceptable_of_line (hcat : catalog.IsOrdinary) {σ τ : Sheet Unit}
    (h : σ.line catalog target s = .ok τ) : s.IsAcceptable catalog target := by
  obtain ⟨htokens, -⟩ | ⟨c, raw, hs, h⟩ := line_eq_ok h
  · exact .inl htokens
  · exact .inr ⟨c, raw, hs, isUsable_of_command hcat hs h⟩

/-- An acceptable line changes the nesting as its word says, or stops the reader if its word cannot
follow. -/
theorem nesting_line (hcat : catalog.IsOrdinary) (σ : Sheet Unit)
    (hs : s.IsAcceptable catalog target) :
    (σ.line catalog target s).toOption.map nesting = Nesting.run σ.nesting (words catalog [s]) := by
  rcases hs with htokens | ⟨c, raw, hs, husable⟩
  · have hidle : words catalog [s] = [] :=
      List.filterMap_cons_none (by simp only [SourceLine.word?, htokens])
    rw [line_eq, htokens, hidle]
    rfl
  · obtain ⟨w, hw⟩ : ∃ w, c.word? = some w := by
      unfold Command.IsUsable at husable
      unfold Command.word?
      cases hkind : c.kind <;> simp [hkind, CommandKind.isExpression] at husable ⊢
    have hline : σ.line catalog target s = σ.command (s.reader catalog target) target s.line c
        (raw.map Token.unquote) raw := by
      obtain ⟨first, htokens, hc⟩ := hs
      rw [line_eq, htokens]
      simp only [hc]
    rw [hline, nesting_command hcat σ hs husable hw, words_singleton (hs.word?.trans hw)]
    exact (Option.bind_fun_some _).symm

/-- Acceptable lines are read as far as their words can follow each other. -/
theorem nesting_lines (hcat : catalog.IsOrdinary) {sources : List SourceLine}
    (hall : ∀ s ∈ sources, s.IsAcceptable catalog target) (σ : Sheet Unit) :
    (sources.foldlM (fun σ source ↦ line catalog target source σ) σ).toOption.map nesting =
      Nesting.run σ.nesting (words catalog sources) := by
  induction sources generalizing σ with
  | nil => rfl
  | cons s sources ih =>
    have hfirst := nesting_line hcat σ (hall s List.mem_cons_self)
    rw [List.foldlM_cons, ← List.singleton_append, words_append, Nesting.run_append, ← hfirst]
    cases hline : σ.line catalog target s with
    | error e => rfl
    | ok τ => exact ih (fun s' hs' ↦ hall s' (List.mem_cons_of_mem _ hs')) τ

section

variable {n : Nat}

/-- A fault at an end names the line. -/
theorem located_finish (n : Nat) (σ : Sheet Unit) : Reading.Located n (σ.finish n) := by
  unfold finish
  split
  · exact .ok _
  · exact .ok _
  · exact .fail _

/-- A fault at an else names the line. -/
theorem located_enterElse (n : Nat) (σ : Sheet Unit) : Reading.Located n (σ.enterElse n) := by
  unfold enterElse
  split
  · split
    · exact .fail _
    · exact .ok _
  · exact .fail _

/-- A fault in a declaration names the line. -/
theorem located_declare (n : Nat) (name : String) (args : List String) (σ : Sheet Unit) :
    Reading.Located n (σ.declare n name args) := by
  unfold declare
  split
  · exact .ok _
  · exact .fail _

variable {read : Reading.Reader} (hread : ∀ text, Reading.Located n (read text))
include hread

/-- A fault in a statement names the line. -/
theorem located_statement (c : Command) (tokens raw : List String) (σ : Sheet Unit) :
    Reading.Located n (σ.statement read n c tokens raw) :=
  (Reading.located_inputs hread _ _ _).bind fun _ ↦ .ok _

/-- A fault in a command names the line. -/
theorem located_command (c : Command) (tokens raw : List String) (σ : Sheet Unit) :
    Reading.Located n (σ.command read target n c tokens raw) := by
  unfold command
  split
  · exact located_finish n σ
  · exact located_enterElse n σ
  · exact located_declare n _ _ σ
  · split
    · exact .fail _
    · split
      · exact .fail _
      · split
        · split
          · exact .fail _
          · exact .ok _
        · split
          · exact .fail _
          · exact located_statement hread c _ raw σ
        · exact located_statement hread c _ raw _

end

/-- An error names the line it is in. -/
theorem located_line (σ : Sheet Unit) (s : SourceLine) :
    Reading.Located s.line (σ.line catalog target s) := by
  rw [line_eq]
  split
  · exact .ok _
  · split
    · exact .fail _
    · exact located_command (Reading.located_expression catalog target s.line _) _ _ _ _

end Sheet

end

/-! ### All lines -/

/-- Lines that can be read so far: each of them is acceptable, and a program can begin like this. -/
def AreReadable (catalog : Catalog) (target : TargetKind) (sources : List SourceLine) : Prop :=
  (∀ s ∈ sources, s.IsAcceptable catalog target) ∧ IsBeginning (words catalog sources)

namespace Sheet

variable {catalog : Catalog} {target : TargetKind} {sources : List SourceLine}

/-- Reading lines one after the other comes to their end or to a line that cannot be read. -/
theorem foldlM_line_cases (catalog : Catalog) (target : TargetKind) (sources : List SourceLine)
    (σ : Sheet Unit) :
    (∃ τ, sources.foldlM (fun σ source ↦ line catalog target source σ) σ = .ok τ) ∨
    ∃ front source back τ e, sources = front ++ source :: back ∧
      front.foldlM (fun σ source ↦ line catalog target source σ) σ = .ok τ ∧
      line catalog target source τ = .error e ∧
      (front ++ [source]).foldlM (fun σ source ↦ line catalog target source σ) σ = .error e ∧
      sources.foldlM (fun σ source ↦ line catalog target source σ) σ = .error e := by
  induction sources generalizing σ with
  | nil => exact .inl ⟨σ, rfl⟩
  | cons s sources ih =>
    rw [List.foldlM_cons]
    cases hline : line catalog target s σ with
    | error e =>
      -- the first line is the one that stops the rest
      refine .inr ⟨[], s, sources, σ, e, rfl, rfl, hline, ?_, rfl⟩
      rw [List.nil_append, List.foldlM_cons, hline]
      rfl
    | ok ρ =>
      rcases ih ρ with hok | ⟨front, source, back, τ, e, rfl, hfront, herror, hstop, hall⟩
      · exact .inl hok
      · -- the line that stops the rest comes later, after this one
        refine .inr ⟨s :: front, source, back, τ, e, rfl, ?_, herror, ?_, hall⟩
        · rw [List.foldlM_cons, hline]
          exact hfront
        · rw [List.cons_append, List.foldlM_cons, hline]
          exact hstop

/-- Lines that were read are acceptable. -/
theorem isAcceptable_of_foldlM (hcat : catalog.IsOrdinary) {σ τ : Sheet Unit}
    (h : sources.foldlM (fun σ source ↦ line catalog target source σ) σ = .ok τ) :
    ∀ s ∈ sources, s.IsAcceptable catalog target := by
  induction sources generalizing σ with
  | nil => exact fun s hs ↦ absurd hs List.not_mem_nil
  | cons s sources ih =>
    rw [List.foldlM_cons] at h
    obtain ⟨ρ, hρ, h⟩ := Reading.bind_eq_ok.1 h
    intro s' hs'
    rcases List.mem_cons.1 hs' with rfl | hs'
    · exact isAcceptable_of_line hcat hρ
    · exact ih h s' hs'

/-- Lines that were read are acceptable one by one and a beginning of a program as a whole. -/
theorem areReadable_of_foldlM (hcat : catalog.IsOrdinary) {τ : Sheet Unit}
    (h : sources.foldlM (fun σ source ↦ line catalog target source σ) {} = .ok τ) :
    AreReadable catalog target sources := by
  have hstart : Parse.Reached catalog target [] {} := .flat .nil rfl rfl
  have hreached := hstart.lines_read hcat.branches h
  have hbeginning := hreached.isBeginning .nil
  rw [List.append_nil, List.nil_append] at hbeginning
  exact ⟨isAcceptable_of_foldlM hcat h, hbeginning⟩

/-- The lines of a target can be read exactly if they are acceptable and a program. -/
theorem read_eq_ok_iff (hcat : catalog.IsOrdinary) :
    (∃ σ, read catalog target sources = .ok σ) ↔
      (∀ s ∈ sources, s.IsAcceptable catalog target) ∧
        ∃ isOpen, IsProgram (words catalog sources) isOpen := by
  constructor
  · rintro ⟨σ, h⟩
    obtain ⟨closed, current, hscripts, -⟩ := Parse.scripts_of_read hcat.branches h
    obtain ⟨τ, hτ, -⟩ := Reading.bind_eq_ok.1 h
    exact ⟨isAcceptable_of_foldlM hcat hτ, _, hscripts.isProgram⟩
  · rintro ⟨hall, isOpen, hprogram⟩
    have hnesting := nesting_lines hcat hall {}
    rw [show ({} : Sheet Unit).nesting = none from rfl, Nesting.run_program hprogram] at hnesting
    unfold read
    cases hτ : sources.foldlM (fun σ source ↦ line catalog target source σ) {} with
    | error e =>
      rw [hτ] at hnesting
      cases hnesting
    | ok τ =>
      rw [hτ] at hnesting
      -- the words end outside all nesting blocks, so there is none to be closed
      have hflat : τ.nesting = if isOpen then some [] else none := Option.some.inj hnesting
      refine ⟨τ, ?_⟩
      show τ.done = .ok τ
      unfold nesting at hflat
      unfold done
      rcases hcurrent : τ.current with - | ⟨- | ⟨l, ls⟩, chain⟩
      · rfl
      · rfl
      · rw [hcurrent] at hflat
        cases isOpen <;> cases hflat

/-- Where the lines of a target cannot be read, the error names the first line that is not
acceptable or cannot follow, or else the innermost nesting block that is left open. -/
theorem line_of_read_eq_error (hcat : catalog.IsOrdinary) {e : SourceError}
    (h : read catalog target sources = .error e) :
    (∃ front source back, sources = front ++ source :: back ∧ AreReadable catalog target front ∧
      ¬ AreReadable catalog target (front ++ [source]) ∧ e.line = source.line) ∨
    AreReadable catalog target sources ∧ ∃ front header back, sources = front ++ header :: back ∧
      header.IsUnclosed catalog back ∧ e.line = header.line := by
  unfold read at h
  rcases foldlM_line_cases catalog target sources {} with
    ⟨τ, hτ⟩ | ⟨front, source, back, τ, e', heq, hfront, herror, hstop, hall⟩
  · rw [hτ] at h
    refine .inr ⟨areReadable_of_foldlM hcat hτ, ?_⟩
    have hstart : Parse.Reached catalog target [] {} := .flat .nil rfl rfl
    have hreached := hstart.lines_read hcat.branches hτ
    rw [List.nil_append] at hreached
    change τ.done = .error e at h
    unfold done at h
    cases hreached with
    | @flat _ closed current _ hscripts hclosed hcurrent =>
      rw [hcurrent] at h
      cases current <;> cases h
    | @nested front lines header σ _ o layer chain hfront ho hopened hclosed hcurrent =>
      rw [hcurrent] at h
      obtain ⟨hunclosed, hline⟩ := hopened.isUnclosed
      cases h
      exact ⟨front, header, lines, rfl, hunclosed, hline⟩
  · rw [hall] at h
    obtain rfl := Except.error.inj h
    refine .inl ⟨front, source, back, heq, areReadable_of_foldlM hcat hfront, ?_,
      located_line τ source e' herror⟩
    -- were the line acceptable and its word able to follow, the nesting would not have stopped
    rintro ⟨hacceptable, hbeginning⟩
    have hnesting := nesting_lines hcat hacceptable {}
    have hsome := Nesting.run_isSome_of_isBeginning hbeginning
    rw [show ({} : Sheet Unit).nesting = none from rfl] at hnesting
    rw [← hnesting, hstop] at hsome
    cases hsome

end Sheet

/-- The outcome of lines does not depend on the draft they are read into. -/
theorem Script.run_lines {catalog : Catalog} (hcat : catalog.HasDistinctSlots) (target : TargetKind)
    (sources : List SourceLine) (ids : IdSource) (outer : List SymbolTables) :
    (run (Build.lines catalog target sources) { ids, symbols := ⟨{}, outer⟩ }).1 =
      (fun _ ↦ ()) <$> Sheet.read catalog target sources := by
  have hfollows := Build.lines_follows hcat target sources ids outer
  unfold run
  generalize Sheet.read catalog target sources = result at hfollows ⊢
  cases hfollows with
  | fails hrun =>
    rw [hrun]
    rfl
  | yields hrun hfits =>
    rw [hrun]
    rfl

/-- **The lines of a target are read exactly if each is acceptable and their words are a program.**
Otherwise the error names the first line that is not acceptable or that no program can go on with,
or, if there is none, the header of the innermost nesting block that is left open. -/
theorem Script.run_lines_outcome (target : TargetKind) (sources : List SourceLine) (ids : IdSource)
    (outer : List SymbolTables) :
    let result :=
      (run (Build.lines .builtin target sources) { ids, symbols := ⟨{}, outer⟩ }).1
    (result = .ok () ↔ (∀ s ∈ sources, s.IsAcceptable .builtin target) ∧
      ∃ isOpen, IsProgram (words .builtin sources) isOpen) ∧
    ∀ e, result = .error e →
      (∃ front source back, sources = front ++ source :: back ∧
        AreReadable .builtin target front ∧
        (¬ source.IsAcceptable .builtin target ∨
          ¬ IsBeginning (words .builtin (front ++ [source]))) ∧
        e.line = source.line) ∨
      AreReadable .builtin target sources ∧ ∃ front header back,
        sources = front ++ header :: back ∧ header.IsUnclosed .builtin back ∧
          e.line = header.line := by
  have hcat := Catalog.builtin_isOrdinary
  dsimp only
  rw [run_lines Catalog.builtin_hasDistinctSlots, ← Sheet.read_eq_ok_iff hcat]
  constructor
  · cases Sheet.read Catalog.builtin target sources with
    | error e => exact ⟨fun h ↦ (by cases h), fun ⟨_, h⟩ ↦ (by cases h)⟩
    | ok σ => exact ⟨fun _ ↦ ⟨σ, rfl⟩, fun _ ↦ rfl⟩
  · intro e he
    have herror : Sheet.read Catalog.builtin target sources = .error e := by
      cases hread : Sheet.read Catalog.builtin target sources with
      | error e' => rw [hread] at he; cases he; rfl
      | ok σ => rw [hread] at he; cases he
    refine (Sheet.line_of_read_eq_error hcat herror).imp_left ?_
    rintro ⟨front, source, back, heq, hfront, hnot, hline⟩
    refine ⟨front, source, back, heq, hfront, ?_, hline⟩
    -- a line that is acceptable and goes on with a beginning would not have been refused
    by_contra hboth
    rw [not_or, not_not, not_not] at hboth
    refine hnot ⟨fun s hs ↦ ?_, hboth.2⟩
    rcases List.mem_append.1 hs with hs | hs
    · exact hfront.1 s hs
    · exact List.mem_singleton.1 hs ▸ hboth.1

/-- A loop that is closed inside a conditional that is not. -/
def unclosedLines : List SourceLine :=
  [⟨1, "when_flag_clicked"⟩, ⟨2, "if 1 > 2"⟩, ⟨3, "repeat @add(1, 2)"⟩, ⟨4, "hide"⟩, ⟨5, "end"⟩]

/-- Lines that leave a block open are refused at the line of the block. -/
theorem Script.run_lines_outcome_unclosed :
    ∃ e, (run (Build.lines .builtin .sprite unclosedLines) {}).1 = .error e ∧ e.line = 2 ∧
      ((∃ front source back, unclosedLines = front ++ source :: back ∧
        AreReadable .builtin .sprite front ∧
        (¬ source.IsAcceptable .builtin .sprite ∨
          ¬ IsBeginning (words .builtin (front ++ [source]))) ∧
        e.line = source.line) ∨
      AreReadable .builtin .sprite unclosedLines ∧ ∃ front header back,
        unclosedLines = front ++ header :: back ∧ header.IsUnclosed .builtin back ∧
          e.line = header.line) := by
  have hline : (match (run (Build.lines .builtin .sprite unclosedLines) {}).1 with
      | .ok _ => none
      | .error e => some e.line) = some 2 := by decide +kernel
  cases hrun : (run (Build.lines .builtin .sprite unclosedLines) {}).1 with
  | ok u =>
    rw [hrun] at hline
    cases hline
  | error e =>
    rw [hrun] at hline
    exact ⟨e, rfl, Option.some.inj hline, (run_lines_outcome .sprite unclosedLines {} []).2 e hrun⟩

end BlockScript
