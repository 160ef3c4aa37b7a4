import BlockScript.Proofs.Roots

/-!
# Scripts as the parse of lines

Which trees the lines of a target stand for, said without following them one by one. A statement is
a line that makes a block on its own, or a header with the lines up to the one that closes it: these
hang under its first sub-chain, and those after an else under its second (`Parse.Statement`,
`Parse.Body`). The statements of a target make up its scripts (`Parse.Scripts`): each hat and each
definition starts one, and so does a statement where none is open.

The reader of lines keeps the nesting blocks that are open on a stack instead (`OpenScript`).
`Parse.Reached` describes what it has read at any time by the same rules, `Parse.Reached.line` is
the step from line to line, and in the end the scripts of the reader are those of the parse
(`Parse.scripts_of_read`).
-/

namespace BlockScript

/-! ### Lines -/

namespace SourceLine

/-- The tokens of a line with their quotes. Blank lines and comments have none. -/
def tokens (s : SourceLine) : List String :=
  let text := Text.trim s.text
  if text.isEmpty || Text.startsWith text "#" then [] else Token.splitLine text

/-- The line gives a command, with these tokens after it. -/
def Gives (catalog : Catalog) (s : SourceLine) (c : Command) (raw : List String) : Prop :=
  ∃ first, s.tokens = first :: raw ∧ catalog.resolve? (Token.unquote first) = some c

theorem Gives.mem_values {catalog : Catalog} {s : SourceLine} {c : Command} {raw : List String}
    (h : s.Gives catalog c raw) : c ∈ catalog.commands.values := by
  obtain ⟨first, -, hc⟩ := h
  exact Catalog.mem_values_of_resolve? hc

/-- The line gives a command of a kind. -/
def Has (catalog : Catalog) (s : SourceLine) (kind : CommandKind) : Prop :=
  ∃ c raw, s.Gives catalog c raw ∧ c.kind = kind

/-- The line makes no block: it says nothing, or it declares a symbol. -/
def IsIdle (catalog : Catalog) (s : SourceLine) : Prop :=
  s.tokens = [] ∨ s.Has catalog .declare

/-- Reads the expressions of a line. -/
def reader (catalog : Catalog) (target : TargetKind) (s : SourceLine) : Reading.Reader :=
  Reading.expression catalog target s.line (catalog.nestingBound (Text.trim s.text).length)

/-- The line gives a command whose block says and holds this. -/
def Makes (catalog : Catalog) (target : TargetKind) (s : SourceLine) (c : Command) (node : Node)
    (slots : Slots Unit) : Prop :=
  ∃ raw, s.Gives catalog c raw ∧ node = Sheet.statementNode c (raw.map Token.unquote) raw ∧
    Reading.inputs (s.reader catalog target) c.name (.ofLine (raw.map Token.unquote) raw) c.inputs =
      .ok slots

end SourceLine

/-- Whether the block of a command is a conditional. -/
def Command.isConditional (c : Command) : Bool :=
  c.opcode == Opcode.ifThen || c.opcode == Opcode.ifElse

/-! ### Parses -/

namespace Parse

section

variable (catalog : Catalog) (target : TargetKind)

mutual

/-- The lines are a statement with all that is nested in it. -/
inductive Statement : List SourceLine → Tree → Prop where
  /-- A line on its own. -/
  | plain {s : SourceLine} {c : Command} {node : Node} {slots : Slots Unit}
    (hs : s.Makes catalog target c node slots) (hkind : c.kind = .stack ∨ c.kind = .call) :
    Statement [s] (Reading.block node slots)
  /-- A header with its body. -/
  | nest {header last : SourceLine} {c : Command} {node : Node} {slots : Slots Unit}
    {lines : List SourceLine} {body : Tree} (hheader : header.Makes catalog target c node slots)
    (hkind : c.kind = .nesting) (hbody : Body lines body) (hlast : last.Has catalog .finish) :
    Statement (header :: (lines ++ [last])) (Reading.block node (slots.branch "SUBSTACK" body))
  /-- A conditional whose body is split in two. -/
  | choose {header middle last : SourceLine} {c : Command} {node : Node} {slots : Slots Unit}
    {lines more : List SourceLine} {body second : Tree}
    (hheader : header.Makes catalog target c node slots) (hkind : c.kind = .nesting)
    (hconditional : c.isConditional = true) (hbody : Body lines body)
    (hmiddle : middle.Has catalog .otherwise) (hsecond : Body more second)
    (hlast : last.Has catalog .finish) :
    Statement (header :: (lines ++ middle :: (more ++ [last])))
      (Reading.block { node with opcode := Opcode.ifElse }
        ((slots.branch "SUBSTACK" body).branch "SUBSTACK2" second))

/-- The lines are what can be nested, and their statements follow each other in the chain. -/
inductive Body : List SourceLine → Tree → Prop where
  /-- Nothing. -/
  | nil : Body [] .nil
  /-- One more line that makes no block. -/
  | idle {lines : List SourceLine} {body : Tree} {s : SourceLine} (h : Body lines body)
    (hs : s.IsIdle catalog) : Body (lines ++ [s]) body
  /-- One more statement. -/
  | statement {lines more : List SourceLine} {body tree : Tree} (h : Body lines body)
    (hmore : Statement more tree) : Body (lines ++ more) (body.append tree)

end

/-- The lines of a target stand for these finished scripts and this open one. -/
inductive Scripts : List SourceLine → List Tree → Option Tree → Prop where
  /-- Nothing. -/
  | nil : Scripts [] [] none
  /-- One more line that makes no block. -/
  | idle {lines : List SourceLine} {closed : List Tree} {current : Option Tree} {s : SourceLine}
    (h : Scripts lines closed current) (hs : s.IsIdle catalog) :
    Scripts (lines ++ [s]) closed current
  /-- A hat starts a script. -/
  | hat {lines : List SourceLine} {closed : List Tree} {current : Option Tree} {s : SourceLine}
    {c : Command} {node : Node} {slots : Slots Unit} (h : Scripts lines closed current)
    (hs : s.Makes catalog target c node slots) (hkind : c.kind = .hat) :
    Scripts (lines ++ [s]) (closed ++ current.toList) (some (Reading.block node slots))
  /-- A definition starts a script. -/
  | define {lines : List SourceLine} {closed : List Tree} {current : Option Tree} {s : SourceLine}
    {c : Command} {raw : List String} (h : Scripts lines closed current)
    (hs : s.Gives catalog c raw) (hkind : c.kind = .define) :
    Scripts (lines ++ [s]) (closed ++ current.toList)
      (some (Sheet.definition () () (Sheet.signature (raw.map Token.unquote))))
  /-- A statement starts a script where none is open. -/
  | implicit {lines more : List SourceLine} {closed : List Tree} {tree : Tree}
    (h : Scripts lines closed none) (hmore : Statement catalog target more tree) :
    Scripts (lines ++ more) closed
      (some ((Reading.block { opcode := Opcode.flagClicked } .nil).append tree))
  /-- A statement goes on with the open script. -/
  | statement {lines more : List SourceLine} {closed : List Tree} {script tree : Tree}
    (h : Scripts lines closed (some script)) (hmore : Statement catalog target more tree) :
    Scripts (lines ++ more) closed (some (script.append tree))
  /-- The end of a script. -/
  | finish {lines : List SourceLine} {closed : List Tree} {script : Tree} {s : SourceLine}
    (h : Scripts lines closed (some script)) (hs : s.Has catalog .finish) :
    Scripts (lines ++ [s]) (closed ++ [script]) none

/-! ### Open nesting blocks -/

/-- The lines after a header, as far as they are read: the first sub-chain, or after an else the
second one. The layer is the nesting block as it is kept until it is closed. -/
inductive Opened (before : Tree) (header : SourceLine) :
    List SourceLine → Layer Unit → Tree → Prop where
  /-- The first sub-chain. -/
  | first {c : Command} {node : Node} {slots : Slots Unit} {lines : List SourceLine} {body : Tree}
    (hheader : header.Makes catalog target c node slots) (hkind : c.kind = .nesting)
    (hbody : Body catalog target lines body) :
    Opened before header lines
      ⟨before, (), node, slots, Branches.ofCommand c, c.name, header.line⟩ body
  /-- The second sub-chain. -/
  | second {middle : SourceLine} {c : Command} {node : Node} {slots : Slots Unit}
    {lines more : List SourceLine} {body second : Tree} {branches : Branches}
    (hheader : header.Makes catalog target c node slots) (hkind : c.kind = .nesting)
    (hconditional : c.isConditional = true) (hbody : Body catalog target lines body)
    (hmiddle : middle.Has catalog .otherwise) (hsecond : Body catalog target more second)
    (hbranches : (Branches.ofCommand c).enterElse = .ok branches) :
    Opened before header (lines ++ middle :: more)
      ⟨before, (), { node with opcode := Opcode.ifElse }, slots.branch "SUBSTACK" body, branches,
        c.name, header.line⟩ second

/-- The reader of lines has come to this sheet after these lines. -/
inductive Reached : List SourceLine → Sheet Unit → Prop where
  /-- No nesting block is open. -/
  | flat {lines : List SourceLine} {closed : List Tree} {current : Option Tree} {σ : Sheet Unit}
    (h : Scripts catalog target lines closed current) (hclosed : σ.closed = closed)
    (hcurrent : σ.current = current.map fun chain ↦ ⟨[], chain⟩) : Reached lines σ
  /-- The innermost nesting block was opened by a header. -/
  | nested {front lines : List SourceLine} {header : SourceLine} {σ τ : Sheet Unit}
    {o : OpenScript Unit} {layer : Layer Unit} {chain : Tree} (h : Reached front σ)
    (ho : σ.ensureScript.current = some o)
    (hopened : Opened catalog target o.chain header lines layer chain)
    (hclosed : τ.closed = σ.ensureScript.closed)
    (hcurrent : τ.current = some ⟨layer :: o.layers, chain⟩) :
    Reached (front ++ header :: lines) τ

end

end Parse

/-! ### Sub-chains of the usual names -/

/-- The sub-chains of a nesting block as the catalog should have them. -/
def Command.usualBranches (c : Command) : Branches :=
  if c.opcode = Opcode.ifThen then .ifThen ⟨"SUBSTACK", none⟩
  else if c.opcode = Opcode.ifElse then .ifElse ⟨"SUBSTACK", none⟩ ⟨"SUBSTACK2", none⟩ false
  else .single ⟨"SUBSTACK", none⟩

/-- All nesting blocks of the catalog have the usual sub-chains: only conditionals have two of
them. -/
def Catalog.HasUsualBranches (catalog : Catalog) : Prop :=
  ∀ c ∈ catalog.commands.values, c.kind = .nesting → Branches.ofCommand c = c.usualBranches

theorem Catalog.builtin_hasUsualBranches : builtin.HasUsualBranches := by
  have hall : ∀ c ∈ builtinCommands, c.kind = .nesting →
    Branches.ofCommand c = c.usualBranches := by
    decide +kernel
  exact fun c hc ↦ hall c (mem_builtinCommands hc)

namespace Command

theorem usualBranches_input (c : Command) : c.usualBranches.active.input = "SUBSTACK" := by
  unfold usualBranches
  split
  · rfl
  · split <;> rfl

/-- An else is for conditionals, and turns a conditional into one with two branches. -/
theorem usualBranches_enterElse {c : Command} {branches : Branches}
    (h : c.usualBranches.enterElse = .ok branches) :
    c.isConditional = true ∧ branches.active.input = "SUBSTACK2" ∧
      ∃ fault, branches.enterElse = .error fault := by
  unfold usualBranches at h
  split at h
  · next hop =>
    obtain rfl := Except.ok.inj h
    exact ⟨by simp [isConditional, hop], rfl, _, rfl⟩
  · split at h
    · next hop =>
      obtain rfl := Except.ok.inj h
      exact ⟨by simp [isConditional, hop], rfl, _, rfl⟩
    · cases h

end Command

/-! ### From line to line -/

namespace Parse

variable {catalog : Catalog} {target : TargetKind} {before : Tree} {header : SourceLine}
  {lines more : List SourceLine} {layer : Layer Unit} {chain tree : Tree} {s : SourceLine}

namespace Opened

theorem idle (h : Opened catalog target before header lines layer chain) (hs : s.IsIdle catalog) :
    Opened catalog target before header (lines ++ [s]) layer chain := by
  cases h with
  | first hheader hkind hbody => exact .first hheader hkind (hbody.idle hs)
  | second hheader hkind hconditional hbody hmiddle hsecond hbranches =>
    rw [List.append_assoc, List.cons_append]
    exact .second hheader hkind hconditional hbody hmiddle (hsecond.idle hs) hbranches

theorem statement (h : Opened catalog target before header lines layer chain)
    (hmore : Statement catalog target more tree) :
    Opened catalog target before header (lines ++ more) layer (chain.append tree) := by
  cases h with
  | first hheader hkind hbody => exact .first hheader hkind (hbody.statement hmore)
  | second hheader hkind hconditional hbody hmiddle hsecond hbranches =>
    rw [List.append_assoc, List.cons_append]
    exact .second hheader hkind hconditional hbody hmiddle (hsecond.statement hmore) hbranches

variable (hcat : catalog.HasUsualBranches)

include hcat

theorem ofCommand_eq {c : Command} {node : Node} {slots : Slots Unit}
    (hheader : header.Makes catalog target c node slots) (hkind : c.kind = .nesting) :
    Branches.ofCommand c = c.usualBranches := by
  obtain ⟨raw, ⟨first, -, hresolve⟩, -⟩ := hheader
  exact hcat c (Catalog.mem_values_of_resolve? hresolve) hkind

omit hcat in
theorem elseNode_eq {c : Command} {node : Node} {slots : Slots Unit}
    (hheader : header.Makes catalog target c node slots) (hconditional : c.isConditional = true)
    (l : Layer Unit) (hnode : l.node = node) (hbranches : l.branches = c.usualBranches) :
    l.elseNode = { node with opcode := Opcode.ifElse } := by
  obtain ⟨raw, -, rfl, -⟩ := hheader
  unfold Layer.elseNode
  rw [hbranches, hnode]
  unfold Command.usualBranches
  by_cases hthen : c.opcode = Opcode.ifThen
  · rw [if_pos hthen]
  · have helse : c.opcode = Opcode.ifElse := by simpa [Command.isConditional,
      hthen] using hconditional
    rw [if_neg hthen, if_pos helse, ← helse]
    rfl

/-- The line that closes a nesting block makes a statement of it. -/
theorem finish (h : Opened catalog target before header lines layer chain)
    (hs : s.Has catalog .finish) :
    ∃ tree, Statement catalog target (header :: (lines ++ [s])) tree ∧
      layer.fill chain = before.append tree := by
  cases h with
  | @first c node slots lines body hheader hkind hbody =>
    refine ⟨_, .nest hheader hkind hbody hs, ?_⟩
    show before.append
        (.cons () node (slots.branch (Branches.ofCommand c).active.input chain) .nil) =
      before.append (.cons () node (slots.branch "SUBSTACK" chain) .nil)
    rw [ofCommand_eq hcat hheader hkind, c.usualBranches_input]
  | @second middle c node slots lines more body second branches hheader hkind hconditional hbody
      hmiddle hsecond hbranches =>
    rw [List.append_assoc, List.cons_append]
    refine ⟨_, .choose hheader hkind hconditional hbody hmiddle hsecond hs, ?_⟩
    rw [ofCommand_eq hcat hheader hkind] at hbranches
    obtain ⟨-, hinput, -⟩ := Command.usualBranches_enterElse hbranches
    show before.append (.cons () _ (Slots.branch _ branches.active.input chain) .nil) = _
    rw [hinput]
    rfl

/-- An else goes on to the second sub-chain. -/
theorem enterElse (h : Opened catalog target before header lines layer chain) {next : Layer Unit}
    (hnext : layer.enterElse chain = .ok next) (hs : s.Has catalog .otherwise) :
    Opened catalog target before header (lines ++ [s]) next .nil := by
  cases h with
  | @first c node slots lines body hheader hkind hbody =>
    have husual := ofCommand_eq hcat hheader hkind
    cases hbranches : (Branches.ofCommand c).enterElse with
    | error fault =>
      rw [Layer.enterElse, hbranches] at hnext
      cases hnext
    | ok branches =>
      rw [Layer.enterElse, hbranches] at hnext
      obtain rfl := Except.ok.inj hnext
      obtain ⟨hconditional, -⟩ := Command.usualBranches_enterElse (husual ▸ hbranches)
      have hnode := elseNode_eq hheader hconditional
        ⟨before, (), node, slots, Branches.ofCommand c, c.name, header.line⟩ rfl husual
      have hinput : (Branches.ofCommand c).active.input = "SUBSTACK" := by
        rw [husual, c.usualBranches_input]
      show Opened catalog target before header _ ⟨before, (), Layer.elseNode _,
        slots.branch (Branches.ofCommand c).active.input chain, branches, c.name, header.line⟩ .nil
      rw [hnode, hinput]
      exact .second hheader hkind hconditional hbody hs .nil hbranches
  | @second middle c node slots lines more body second branches hheader hkind hconditional hbody
      hmiddle hsecond hbranches =>
    -- the body is split already
    rw [ofCommand_eq hcat hheader hkind] at hbranches
    obtain ⟨-, -, fault, hfault⟩ := Command.usualBranches_enterElse hbranches
    rw [Layer.enterElse] at hnext
    rw [hfault] at hnext
    cases hnext

end Opened

/-! ### The reader of lines -/

end Parse

/-- What the reader does with a line, in terms of its tokens. -/
theorem Sheet.line_eq (catalog : Catalog) (target : TargetKind) (s : SourceLine) (σ : Sheet Unit) :
    σ.line catalog target s =
      match s.tokens with
      | [] => .ok σ
      | first :: raw =>
        match catalog.resolve? (Token.unquote first) with
        | none => Reading.fail s.line (Build.unknownWord catalog (Token.unquote first))
        | some c => σ.command (s.reader catalog target) target s.line c (raw.map Token.unquote)
            raw := by
  unfold Sheet.line SourceLine.tokens SourceLine.reader
  dsimp only
  split
  · rfl
  · cases Token.splitLine (Text.trim s.text) with
    | nil => rfl
    | cons first raw =>
      cases catalog.resolve? (Token.unquote first) with
      | none => rfl
      | some c => rfl

/-- A line that is read says nothing, or gives a command that is followed. -/
theorem Sheet.line_eq_ok {catalog : Catalog} {target : TargetKind} {s : SourceLine}
    {σ τ : Sheet Unit} (h : σ.line catalog target s = .ok τ) :
    (s.tokens = [] ∧ σ = τ) ∨ ∃ c raw, s.Gives catalog c raw ∧
      σ.command (s.reader catalog target) target s.line c (raw.map Token.unquote) raw = .ok τ := by
  rw [line_eq] at h
  split at h
  · next htokens => exact .inl ⟨htokens, Except.ok.inj h⟩
  · next first raw htokens =>
    split at h
    · cases h
    · next c hc => exact .inr ⟨c, raw, ⟨first, htokens, hc⟩, h⟩

namespace Parse.Reached

variable {catalog : Catalog} {target : TargetKind} {lines more : List SourceLine} {tree : Tree}
  {s : SourceLine} {σ τ : Sheet Unit}

theorem idle (h : Reached catalog target lines σ) (hs : s.IsIdle catalog)
    (hclosed : τ.closed = σ.closed) (hcurrent : τ.current = σ.current) :
    Reached catalog target (lines ++ [s]) τ := by
  cases h with
  | flat h hclosed' hcurrent' =>
    exact .flat (h.idle hs) (hclosed.trans hclosed') (hcurrent.trans hcurrent')
  | nested h ho hopened hclosed' hcurrent' =>
    rw [List.append_assoc, List.cons_append]
    exact .nested h ho (hopened.idle hs) (hclosed.trans hclosed') (hcurrent.trans hcurrent')

/-- A statement goes to the innermost chain, in a script that is started for it where none is
open. -/
theorem statement (h : Reached catalog target lines σ) (hmore : Statement catalog target more tree)
    (hclosed : τ.closed = σ.ensureScript.closed)
    (hcurrent : τ.current = σ.ensureScript.current.map (·.append tree)) :
    Reached catalog target (lines ++ more) τ := by
  cases h with
  | @flat _ closed current _ h hclosed' hcurrent' =>
    cases current with
    | none =>
      simp only [Sheet.ensureScript, hcurrent', Option.map_none, Option.isSome_none,
        Bool.false_eq_true, if_false, Sheet.start, Sheet.scripts, Option.toList_none,
        List.append_nil, Option.map_some] at hclosed hcurrent
      exact .flat (h.implicit hmore) (hclosed.trans hclosed') hcurrent
    | some script =>
      rw [Sheet.ensureScript_of_isSome (by rw [hcurrent']; rfl)] at hclosed hcurrent
      rw [hcurrent'] at hcurrent
      exact .flat (h.statement hmore) (hclosed.trans hclosed') hcurrent
  | nested h ho hopened hclosed' hcurrent' =>
    rw [Sheet.ensureScript_of_isSome (by rw [hcurrent']; rfl)] at hclosed hcurrent
    rw [hcurrent'] at hcurrent
    rw [List.append_assoc, List.cons_append]
    exact .nested h ho (hopened.statement hmore) (hclosed.trans hclosed') hcurrent

/-- A hat or a definition, with no nesting block open. -/
theorem start {head : Tree} (h : Reached catalog target lines σ) (hnested : σ.isNested = false)
    (hstart : ∀ closed current, Scripts catalog target lines closed current →
      Scripts catalog target (lines ++ [s]) (closed ++ current.toList) (some head)) :
    Reached catalog target (lines ++ [s]) (σ.start head) := by
  cases h with
  | @flat _ closed current _ h hclosed hcurrent =>
    refine .flat (hstart closed current h) ?_ rfl
    show σ.scripts = _
    rw [Sheet.scripts, hclosed, hcurrent]
    cases current <;> rfl
  | nested h ho hopened hclosed hcurrent =>
    rw [Sheet.isNested, hcurrent] at hnested
    cases hnested

variable (hcat : catalog.HasUsualBranches)

include hcat

theorem finish {line : Nat} (h : Reached catalog target lines σ) (hs : s.Has catalog .finish)
    (hτ : σ.finish line = .ok τ) : Reached catalog target (lines ++ [s]) τ := by
  cases h with
  | @flat _ closed current _ h hclosed hcurrent =>
    cases current with
    | none =>
      simp only [Sheet.finish, hcurrent, Option.map_none] at hτ
      cases hτ
    | some script =>
      simp only [Sheet.finish, hcurrent, Option.map_some] at hτ
      obtain rfl := Except.ok.inj hτ
      exact .flat (h.finish hs) (by rw [hclosed]) rfl
  | @nested front lines header ρ _ o layer chain h ho hopened hclosed hcurrent =>
    simp only [Sheet.finish, hcurrent] at hτ
    obtain rfl := Except.ok.inj hτ
    obtain ⟨tree, htree, hfill⟩ := hopened.finish hcat hs
    rw [List.append_assoc, List.cons_append]
    refine h.statement htree hclosed ?_
    rw [ho, hfill]
    rfl

theorem enterElse {line : Nat} (h : Reached catalog target lines σ) (hs : s.Has catalog .otherwise)
    (hτ : σ.enterElse line = .ok τ) : Reached catalog target (lines ++ [s]) τ := by
  cases h with
  | @flat _ closed current _ h hclosed hcurrent =>
    cases current <;> simp only [Sheet.enterElse, hcurrent, Option.map_none,
      Option.map_some] at hτ <;>
      cases hτ
  | @nested front lines header ρ _ o layer chain h ho hopened hclosed hcurrent =>
    simp only [Sheet.enterElse, hcurrent] at hτ
    split at hτ
    · cases hτ
    · next next hnext =>
      obtain rfl := Except.ok.inj hτ
      rw [List.append_assoc, List.cons_append]
      exact .nested h ho (hopened.enterElse hcat hnext hs) hclosed rfl

omit hcat in
/-- A statement line that is no hat makes a block in the innermost chain, and opens it if it is a
header. -/
theorem place {c : Command} {node : Node} {slots : Slots Unit} (h : Reached catalog target lines σ)
    (hs : s.Makes catalog target c node slots)
    (hkind : (c.kind = .stack ∨ c.kind = .call) ∨ c.kind = .nesting) :
    Reached catalog target (lines ++ [s]) (σ.ensureScript.place c s.line () node slots) := by
  rcases hkind with hkind | hkind
  · refine h.statement (.plain hs hkind) ?_ ?_ <;>
      rcases hkind with hkind | hkind <;> simp only [Sheet.place, hkind] <;> rfl
  · obtain ⟨o, ho⟩ : ∃ o, σ.ensureScript.current = some o := by
      unfold Sheet.ensureScript
      split
      · next hsome => exact Option.isSome_iff_exists.1 hsome
      · exact ⟨_, rfl⟩
    refine .nested h ho (.first hs hkind .nil) ?_ ?_ <;> simp only [Sheet.place, hkind]
    rw [ho]
    rfl

omit hcat in
theorem statement_eq_ok {c : Command} {raw : List String} (hs : s.Gives catalog c raw)
    (hτ : σ.statement (s.reader catalog target) s.line c (raw.map Token.unquote) raw = .ok τ) :
    ∃ node slots, s.Makes catalog target c node slots ∧ τ = σ.place c s.line () node slots := by
  obtain ⟨slots, hslots, hτ⟩ := Reading.bind_eq_ok.1 hτ
  obtain rfl := Except.ok.inj hτ
  exact ⟨_, slots, ⟨raw, hs, rfl, hslots⟩, rfl⟩

/-- What a command does, in terms of the parse. -/
theorem command {c : Command} {raw : List String} (h : Reached catalog target lines σ)
    (hs : s.Gives catalog c raw) (hτ : σ.command (s.reader catalog target) target s.line c
      (raw.map Token.unquote) raw = .ok τ) : Reached catalog target (lines ++ [s]) τ := by
  obtain ⟨hkind, hτ⟩ | ⟨hkind, hτ⟩ | ⟨hkind, hτ⟩ | ⟨-, hτ⟩ := Sheet.command_eq_ok hτ
  · exact h.finish hcat ⟨c, raw, hs, hkind⟩ hτ
  · exact h.enterElse hcat ⟨c, raw, hs, hkind⟩ hτ
  · obtain ⟨-, -, -, rfl⟩ := Sheet.declare_eq_ok hτ
    exact h.idle (.inr ⟨c, raw, hs, hkind⟩) rfl rfl
  obtain ⟨hkind, hnested, rfl⟩ | ⟨hkind, hnested, hτ⟩ | ⟨hkind, hτ⟩ := hτ
  · exact h.start hnested fun _ _ hscripts ↦ hscripts.define hs hkind
  · obtain ⟨node, slots, hmakes, rfl⟩ := statement_eq_ok hs hτ
    simp only [Sheet.place, hkind]
    exact h.start hnested fun _ _ hscripts ↦ hscripts.hat hmakes hkind
  · obtain ⟨node, slots, hmakes, rfl⟩ := statement_eq_ok hs hτ
    exact h.place hmakes hkind

/-- **One line more.** What the reader has come to after some lines is what the parse says, and
stays so with the next line. -/
theorem line (h : Reached catalog target lines σ) (hτ : σ.line catalog target s = .ok τ) :
    Reached catalog target (lines ++ [s]) τ := by
  obtain ⟨htokens, rfl⟩ | ⟨c, raw, hs, hτ⟩ := Sheet.line_eq_ok hτ
  · exact h.idle (.inl htokens) rfl rfl
  · exact h.command hcat hs hτ

/-- All lines. -/
theorem lines_read {sources : List SourceLine} (h : Reached catalog target lines σ)
    (hτ : sources.foldlM (fun σ source ↦ σ.line catalog target source) σ = .ok τ) :
    Reached catalog target (lines ++ sources) τ := by
  induction sources generalizing lines σ with
  | nil =>
    obtain rfl := Except.ok.inj hτ
    rwa [List.append_nil]
  | cons source sources ih =>
    rw [List.foldlM_cons] at hτ
    obtain ⟨ρ, hρ, hτ⟩ := Reading.bind_eq_ok.1 hτ
    have hrest := ih (h.line hcat hρ) hτ
    rwa [List.append_assoc, List.singleton_append] at hrest

end Parse.Reached

/-! ### Scripts of a target -/

namespace Parse

variable {catalog : Catalog} {target : TargetKind} {sources : List SourceLine}

/-- The scripts that are read from the lines of a target are those of its parse. -/
theorem scripts_of_read (hcat : catalog.HasUsualBranches) {σ : Sheet Unit}
    (h : Sheet.read catalog target sources = .ok σ) :
    ∃ closed current, Scripts catalog target sources closed current ∧
      σ.scripts = closed ++ current.toList := by
  obtain ⟨τ, hτ, hdone⟩ := Reading.bind_eq_ok.1 h
  have hstart : Reached catalog target [] {} := .flat .nil rfl rfl
  have hreached := hstart.lines_read hcat hτ
  unfold Sheet.done at hdone
  cases hreached with
  | @flat _ closed current _ hscripts hclosed hcurrent =>
    refine ⟨closed, current, hscripts, ?_⟩
    cases current <;> simp only [hcurrent, Option.map_none, Option.map_some] at hdone <;>
      obtain rfl := Except.ok.inj hdone <;>
      simp [Sheet.scripts, hclosed, hcurrent, OpenScript.whole]
  | nested h ho hopened hclosed hcurrent =>
    rw [hcurrent] at hdone
    cases hdone

/-- A script starts with a block that is no prototype, unless a hat of the catalog is one. -/
theorem Scripts.head (hcat : ∀ c ∈ catalog.commands.values, c.kind = .hat →
      c.opcode ≠ Opcode.prototype) {closed : List Tree} {current : Option Tree}
    (h : Scripts catalog target sources closed current) :
    ∀ script ∈ closed ++ current.toList, ∃ node slots rest,
      script = .cons () node slots rest ∧ node.opcode ≠ Opcode.prototype := by
  induction h with
  | nil => simp
  -- a line that is idle, or that ends a script, makes no new one
  | idle h hs ih => exact ih
  | hat h hs hkind ih =>
    obtain ⟨raw, ⟨first, -, hresolve⟩, rfl, -⟩ := hs
    intro script hscript
    rcases List.mem_append.1 hscript with hscript | hscript
    · exact ih script hscript
    · obtain rfl := List.mem_singleton.1 hscript
      exact ⟨_, _, _, rfl, hcat _ (Catalog.mem_values_of_resolve? hresolve) hkind⟩
  | define h hs hkind ih =>
    intro script hscript
    rcases List.mem_append.1 hscript with hscript | hscript
    · exact ih script hscript
    · obtain rfl := List.mem_singleton.1 hscript
      exact ⟨_, _, _, rfl, by decide⟩
  | implicit h hmore ih =>
    intro script hscript
    rcases List.mem_append.1 hscript with hscript | hscript
    · exact ih script (List.mem_append_left _ hscript)
    · obtain rfl := List.mem_singleton.1 hscript
      exact ⟨_, _, _, rfl, by decide⟩
  | @statement lines more closed script tree h hmore ih =>
    intro other hother
    rcases List.mem_append.1 hother with hother | hother
    · exact ih other (List.mem_append_left _ hother)
    · -- a statement goes to the end of the script and leaves its head
      obtain rfl := List.mem_singleton.1 hother
      obtain ⟨node, slots, rest, rfl, hop⟩ := ih script (List.mem_append_right _ (by simp))
      exact ⟨node, slots, rest.append tree, rfl, hop⟩
  | finish h hs ih => simpa using ih

end Parse

/-- The blocks of a target unfold to a tree from one of them on: along the successors, the
sub-chains, the values and the shadows. -/
def TargetBuild.Unfolds (built : TargetBuild) (root : BlockId) (script : Tree) : Prop :=
  ∃ (t : Chain BlockId) (s : Setting), t.start = some root ∧ t.erase = script ∧
    t.Held ⟨built.target.blocks, built.symbols⟩ s

namespace Sheet.Drafted

variable {σ : Sheet BlockId} {outer : List SymbolTables} {d : Draft}

/-- No entry point is a prototype if no script starts with one. -/
theorem opcode_ne_prototype (h : σ.Drafted outer d)
    (hhead : ∀ script ∈ σ.erase.scripts, ∃ node slots rest,
      script = .cons () node slots rest ∧ node.opcode ≠ Opcode.prototype)
    {id : BlockId} {b : Block} (hb : d.blocks.find? id = some b) (htop : b.isTopLevel = true) :
    b.opcode ≠ Opcode.prototype := by
  obtain ⟨i, c, hi, hstart⟩ := h.exists_script_of_isTopLevel hb htop
  have hmem : c.erase ∈ σ.erase.scripts := by
    rw [erase_scripts]
    exact List.mem_map_of_mem (List.mem_of_getElem? hi)
  obtain ⟨node, slots, rest, heq, hop⟩ := hhead _ hmem
  have hheld := h.held i c hi
  match c with
  | .cons id' node' slots' rest' =>
    obtain rfl := Option.some.inj hstart
    obtain ⟨b', hb', hsaid, -⟩ := hheld
    obtain rfl := Option.some.inj (hb.symm.trans hb')
    obtain ⟨-, rfl, -⟩ := Chain.cons.inj heq
    rw [hsaid.opcode]
    exact hop

/-- The entry points of a target unfold to the scripts it was drafted from. -/
theorem roots_unfold (h : σ.Drafted outer d) (kind : TargetKind) (name : String)
    (hhead : ∀ script ∈ σ.erase.scripts, ∃ node slots rest,
      script = .cons () node slots rest ∧ node.opcode ≠ Opcode.prototype) :
    List.Forall₂ (d.finish kind name).Unfolds (d.finish kind name).target.roots
      σ.erase.scripts := by
  have hunfold : ∀ l : List (Chain BlockId),
      (∀ c ∈ l, c ≠ .nil ∧ ∃ s, c.Held d.graph s) →
        List.Forall₂ (d.finish kind name).Unfolds (l.filterMap Chain.start)
          (l.map Chain.erase) := by
    intro l
    induction l with
    | nil => exact fun _ ↦ .nil
    | cons c l ih =>
      intro hl
      obtain ⟨hne, s, hheld⟩ := hl c List.mem_cons_self
      have hrest := ih fun c' hc' ↦ hl c' (List.mem_cons_of_mem _ hc')
      match c with
      | .nil => exact absurd rfl hne
      | .cons id node slots rest => exact .cons ⟨.cons id node slots rest, s, rfl, rfl, hheld⟩ hrest
  rw [h.roots kind name fun id b hb htop ↦ h.opcode_ne_prototype hhead hb htop, erase_scripts]
  refine hunfold σ.scripts fun c hc ↦ ⟨h.filled c hc, ?_⟩
  obtain ⟨i, hi⟩ := List.mem_iff_getElem?.1 hc
  exact ⟨_, h.held i c hi⟩

end Sheet.Drafted

/-- **The blocks of a target are the parse of its lines.** -/
theorem Script.roots_unfold_of_build {kind : TargetKind} {sources : List SourceLine}
    {built : TargetBuild} (h : build .builtin kind sources = .ok built) :
    ∃ closed current, Parse.Scripts .builtin kind sources closed current ∧
      List.Forall₂ built.Unfolds built.target.roots (closed ++ current.toList) := by
  have hhat : ∀ c ∈ Catalog.builtin.commands.values, c.kind = .hat →
      c.opcode ≠ Opcode.prototype := by
    have hall : ∀ c ∈ Catalog.builtinCommands, c.kind = .hat → c.opcode ≠ Opcode.prototype := by
      decide +kernel
    exact fun c hc ↦ hall c (Catalog.mem_builtinCommands hc)
  obtain ⟨σ, d, hread, hσ, rfl⟩ := drafted_of_build Catalog.builtin_hasDistinctSlots h
  obtain ⟨closed, current, hscripts, heq⟩ :=
    Parse.scripts_of_read Catalog.builtin_hasUsualBranches hread
  refine ⟨closed, current, hscripts, ?_⟩
  rw [← heq]
  exact hσ.roots_unfold kind _ (heq ▸ hscripts.head hhat)

/-- A script with a conditional of two branches, one of them with a loop in it, then the end of that
script and a statement that has none. -/
def twoScripts : List SourceLine :=
  [⟨1, "when_flag_clicked"⟩, ⟨2, "if 1 > 2"⟩, ⟨3, "hide"⟩, ⟨4, "else"⟩, ⟨5, "repeat 3"⟩,
    ⟨6, "show"⟩, ⟨7, "end"⟩, ⟨8, "end"⟩, ⟨9, "end"⟩, ⟨10, "hide"⟩]

theorem Script.roots_unfold_of_build_twoScripts :
    ∃ built, build .builtin .sprite twoScripts = .ok built ∧ built.blockCount = 8 ∧
      ∃ closed current, Parse.Scripts .builtin .sprite twoScripts closed current ∧
        List.Forall₂ built.Unfolds built.target.roots (closed ++ current.toList) := by
  have hcount : (build .builtin .sprite twoScripts).toOption.map (·.blockCount) =
      some 8 := by decide +kernel
  cases hbuild : build .builtin .sprite twoScripts with
  | error e =>
    rw [hbuild] at hcount
    cases hcount
  | ok built =>
    rw [hbuild] at hcount
    exact ⟨built, rfl, Option.some.inj hcount, roots_unfold_of_build hbuild⟩

end BlockScript
