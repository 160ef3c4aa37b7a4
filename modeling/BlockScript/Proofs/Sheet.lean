import BlockScript.Proofs.Reading

/-!
# Lines as trees

What the lines of a target say, as a list of chains. A sheet holds the finished scripts and the
open one. An open script is kept inside out: the chain that the next block is appended to, and
around it the nesting blocks that are still open (`Layer`), the innermost first. Closing a nesting
block puts the chain into it (`Layer.fill`), and `OpenScript.whole` closes them all.

`Sheet.read` follows the lines as `Build.lines` does, without making blocks.
-/

namespace BlockScript

variable {α : Type}

/-- Slots with a sub-chain under its name. An empty sub-chain takes no slot. -/
def Slots.branch (s : Slots α) (input : String) : Chain α → Slots α
  | .nil => s
  | .cons tag node slots rest => s.append (.cons input none (.cons tag node slots rest) .nil .nil)

/-! ### Open scripts -/

/-- A nesting block that is still open. -/
structure Layer (α : Type) where
  /-- The blocks before it in its chain. -/
  before : Chain α
  /-- Its tag. -/
  tag : α
  /-- What it says. -/
  node : Node
  /-- Its inputs and the sub-chains that are finished. -/
  slots : Slots α
  /-- Its sub-chains, of which only the names matter. -/
  branches : Branches
  /-- The command that made it. -/
  command : String
  /-- The line of that command. -/
  line : Nat

namespace Layer

/-- The chain that ends with the nesting block, with a chain in its active branch. -/
def fill (l : Layer α) (c : Chain α) : Chain α :=
  l.before.append (.cons l.tag l.node (l.slots.branch l.branches.active.input c) .nil)

/-- What the nesting block says after an else: a conditional with one branch becomes one with
two. -/
def elseNode (l : Layer α) : Node :=
  match l.branches with
  | .ifThen _ => { l.node with opcode := Opcode.ifElse }
  | _ => l.node

/-- The nesting block after an else that ends the chain in its first branch. -/
def enterElse (l : Layer α) (c : Chain α) : Except Fault (Layer α) :=
  l.branches.enterElse.map fun branches ↦
    { l with
      node := l.elseNode
      slots := l.slots.branch l.branches.active.input c
      branches }

/-- The tags of the nesting block and the blocks before it. -/
def tags (l : Layer α) : List α := l.before.tags ++ l.tag :: l.slots.tags

/-- The names asked for by the nesting block and the blocks before it. -/
def asked (l : Layer α) : List Request := l.before.asked ++ (l.node.asked ++ l.slots.asked)

/-- A layer without its tags. -/
def erase (l : Layer α) : Layer Unit :=
  { l with before := l.before.erase, tag := (), slots := l.slots.erase }

end Layer

/-- A script that is still being written. -/
structure OpenScript (α : Type) where
  /-- The open nesting blocks, innermost first. -/
  layers : List (Layer α) := []
  /-- The chain that the next block goes to. -/
  chain : Chain α

namespace OpenScript

/-- The script with all nesting blocks closed. -/
def whole (o : OpenScript α) : Chain α :=
  o.layers.foldl (fun c l ↦ l.fill c) o.chain

/-- Appends a chain. -/
def append (o : OpenScript α) (c : Chain α) : OpenScript α :=
  { o with chain := o.chain.append c }

/-- Opens a nesting block. -/
def nest (o : OpenScript α) (tag : α) (node : Node) (slots : Slots α) (command : Command)
    (line : Nat) : OpenScript α :=
  ⟨⟨o.chain, tag, node, slots, Branches.ofCommand command, command.name, line⟩ :: o.layers, .nil⟩

/-- The tags of the open nesting blocks and the blocks before them. -/
def outerTags : List (Layer α) → List α
  | [] => []
  | l :: ls => outerTags ls ++ l.tags

/-- The names asked for by the open nesting blocks and the blocks before them. -/
def outerAsked : List (Layer α) → List Request
  | [] => []
  | l :: ls => outerAsked ls ++ l.asked

/-- An open script without its tags. -/
def erase (o : OpenScript α) : OpenScript Unit :=
  ⟨o.layers.map Layer.erase, o.chain.erase⟩

end OpenScript

/-! ### Sheets -/

/-- The scripts of a target as far as they are written. -/
structure Sheet (α : Type) where
  /-- The finished scripts in order. -/
  closed : List (Chain α) := []
  /-- The open script. -/
  current : Option (OpenScript α) := none
  /-- The names that were declared. -/
  declared : List Request := []

namespace Sheet

/-- All scripts in order, the open one with all its nesting blocks closed. -/
def scripts (σ : Sheet α) : List (Chain α) :=
  σ.closed ++ (σ.current.map OpenScript.whole).toList

/-- Whether a nesting block is open. -/
def isNested (σ : Sheet α) : Bool :=
  match σ.current with
  | some o => !o.layers.isEmpty
  | none => false

/-- Finishes the open script and starts another one. -/
def start (σ : Sheet α) (head : Chain α) : Sheet α :=
  { σ with closed := σ.scripts, current := some { chain := head } }

/-- Closes the innermost nesting block, or else the script. -/
def finish (line : Nat) (σ : Sheet α) : Reading.Result (Sheet α) :=
  match σ.current with
  | some ⟨l :: ls, c⟩ => return { σ with current := some ⟨ls, l.fill c⟩ }
  | some ⟨[], c⟩ => return { σ with closed := σ.closed ++ [c], current := none }
  | none => Reading.fail line .strayEnd

/-- Goes on to the second branch of the innermost nesting block. -/
def enterElse (line : Nat) (σ : Sheet α) : Reading.Result (Sheet α) :=
  match σ.current with
  | some ⟨l :: ls, c⟩ =>
    match l.enterElse c with
    | .error fault => Reading.fail line fault
    | .ok l => return { σ with current := some ⟨l :: ls, .nil⟩ }
  | _ => Reading.fail line .strayElse

/-- Declares a symbol. -/
def declare (line : Nat) (name : String) (args : List String) (σ : Sheet α) :
    Reading.Result (Sheet α) :=
  match Build.declaration? name args with
  | some (kind, _) =>
    return { σ with declared := σ.declared ++
      [(kind, Text.nameOr (args.head?.getD "") kind.fallbackName)] }
  | none => Reading.fail line (.unknownDeclaration name)

/-- The name of the procedure that the words of a line name. -/
def signature (args : List String) : String :=
  Text.nameOr (Text.join " " args) SymbolKind.procedures.fallbackName

/-- The block that carries the name of a procedure. -/
def prototype (tag : α) (name : String) : Chain α :=
  .cons tag { opcode := Opcode.prototype, procedure := some name } .nil .nil

/-- The head of the definition of a procedure. -/
def definition (tag tag' : α) (name : String) : Chain α :=
  .cons tag { opcode := Opcode.definition }
    (Content.slot { shadow := prototype tag' name } "custom_block") .nil

/-- Puts the block of a statement into the script, or starts one with it. -/
def place (command : Command) (line : Nat) (tag : α) (node : Node) (slots : Slots α)
    (σ : Sheet α) : Sheet α :=
  match command.kind with
  | .hat => σ.start (.cons tag node slots .nil)
  | .nesting => { σ with current := σ.current.map (·.nest tag node slots command line) }
  | _ => { σ with current := σ.current.map (·.append (.cons tag node slots .nil)) }

/-- A sheet without its tags. -/
def erase (σ : Sheet α) : Sheet Unit :=
  { σ with closed := σ.closed.map Chain.erase, current := σ.current.map OpenScript.erase }

/-- What the block of a statement says apart from its slots. -/
def statementNode (command : Command) (tokens raw : List String) : Node where
  opcode := command.opcode
  fields := command.fields.map (Reading.field (.ofLine tokens raw))
  procedure := if command.kind = .call then some (signature tokens) else none

/-- Reads a statement. -/
def statement (read : Reading.Reader) (line : Nat) (command : Command) (tokens raw : List String)
    (σ : Sheet Unit) : Reading.Result (Sheet Unit) := do
  let slots ← Reading.inputs read command.name (.ofLine tokens raw) command.inputs
  return σ.place command line () (statementNode command tokens raw) slots

/-- Starts a script that runs when the program starts, unless a script is open. -/
def ensureScript (σ : Sheet Unit) : Sheet Unit :=
  if σ.current.isSome then σ
  else σ.start (.cons () { opcode := Opcode.flagClicked } .nil .nil)

/-- Follows a command. -/
def command (read : Reading.Reader) (target : TargetKind) (line : Nat) (c : Command)
    (tokens raw : List String) (σ : Sheet Unit) : Reading.Result (Sheet Unit) :=
  match c.kind with
  | .finish => σ.finish line
  | .otherwise => σ.enterElse line
  | .declare => σ.declare line c.name tokens
  | kind =>
    if !c.isAvailableOn target then Reading.fail line (.notOnStage c.name)
    else if kind.isExpression then Reading.fail line (.expressionAsStatement c.name)
    else match kind with
      | .define =>
        if σ.isNested then Reading.fail line .nestedDefinition
        else return σ.start (definition () () (signature tokens))
      | .hat =>
        if σ.isNested then Reading.fail line .nestedScript
        else σ.statement read line c tokens raw
      | _ => σ.ensureScript.statement read line c tokens raw

/-- Reads one line. -/
def line (catalog : Catalog) (target : TargetKind) (source : SourceLine) (σ : Sheet Unit) :
    Reading.Result (Sheet Unit) :=
  let text := Text.trim source.text
  if text.isEmpty || Text.startsWith text "#" then return σ
  else match Token.splitLine text with
    | [] => return σ
    | first :: raw =>
      match catalog.resolve? (Token.unquote first) with
      | none => Reading.fail source.line (Build.unknownWord catalog (Token.unquote first))
      | some c =>
        σ.command (Reading.expression catalog target source.line
          (catalog.nestingBound text.length)) target source.line c (raw.map Token.unquote) raw

/-- All nesting blocks have to be closed in the end. -/
def done (σ : Sheet Unit) : Reading.Result (Sheet Unit) :=
  match σ.current with
  | some ⟨l :: _, _⟩ => Reading.fail l.line (.unclosedBlock l.command)
  | _ => return σ

/-- Reads the lines of a target. -/
def read (catalog : Catalog) (target : TargetKind) (sources : List SourceLine) :
    Reading.Result (Sheet Unit) := do
  let σ ← sources.foldlM (fun σ source ↦ line catalog target source σ) {}
  σ.done

end Sheet

/-! ### Trees of open scripts -/

namespace Slots

/-- A branch that is not empty becomes one more slot. -/
theorem branch_cons (s : Slots α) (input : String) (tag : α) (node : Node) (slots : Slots α)
    (rest : Chain α) : s.branch input (.cons tag node slots rest) =
      s.append (Content.slot { value := .cons tag node slots rest } input) := rfl

/-- The tags of a branch come after those of the slots before it. -/
@[simp]
theorem tags_branch (s : Slots α) (input : String) (c : Chain α) :
    (s.branch input c).tags = s.tags ++ c.tags := by
  cases c with
  | nil => simp [branch, Chain.tags]
  | cons => simp [branch_cons, Content.tags, Chain.tags]

/-- What a branch asks for comes after what the slots before it ask for. -/
@[simp]
theorem asked_branch (s : Slots α) (input : String) (c : Chain α) :
    (s.branch input c).asked = s.asked ++ c.asked := by
  cases c with
  | nil => simp [branch, Chain.asked]
  | cons => simp [branch_cons, Content.asked, Chain.asked]

/-- Forgetting tags commutes with adding a branch. -/
@[simp]
theorem erase_branch (s : Slots α) (input : String) (c : Chain α) :
    (s.branch input c).erase = s.erase.branch input c.erase := by
  cases c with
  | nil => rfl
  | cons => simp [branch_cons, Chain.erase, Content.erase]

end Slots

namespace Layer

/-- A filled layer has the tags of the layer and then those of the chain. -/
@[simp]
theorem tags_fill (l : Layer α) (c : Chain α) : (l.fill c).tags = l.tags ++ c.tags := by
  simp [fill, tags, Chain.tags]

/-- Forgetting tags commutes with filling a layer. -/
@[simp]
theorem erase_fill (l : Layer α) (c : Chain α) : (l.fill c).erase = l.erase.fill c.erase := by
  simp [fill, erase, Chain.erase]

/-- A filled layer asks for what the layer asks for and then for what the chain does. -/
@[simp]
theorem asked_fill (l : Layer α) (c : Chain α) : (l.fill c).asked = l.asked ++ c.asked := by
  simp [fill, asked, Chain.asked]

/-- Forgetting tags commutes with an else, which is refused in the same places. -/
theorem erase_enterElse (l : Layer α) (c : Chain α) :
    (l.enterElse c).map Layer.erase = l.erase.enterElse c.erase := by
  unfold enterElse
  simp only [erase]
  cases l.branches.enterElse with
  | error fault => rfl
  | ok branches => simp [Except.map, erase, elseNode]

end Layer

namespace OpenScript

/-- The innermost layer is filled first. -/
theorem whole_cons (l : Layer α) (ls : List (Layer α)) (c : Chain α) :
    (⟨l :: ls, c⟩ : OpenScript α).whole = (⟨ls, l.fill c⟩ : OpenScript α).whole := rfl

/-- A block that was just opened is an ordinary block of the whole script so far. -/
@[simp]
theorem whole_nest (o : OpenScript α) (tag : α) (node : Node) (slots : Slots α)
    (command : Command) (line : Nat) :
    (o.nest tag node slots command line).whole =
      (o.append (.cons tag node slots .nil)).whole := rfl

/-- The tags of a whole script are those of its layers, outermost first, and of its chain. -/
theorem tags_whole (ls : List (Layer α)) : ∀ c : Chain α,
    (⟨ls, c⟩ : OpenScript α).whole.tags = outerTags ls ++ c.tags := by
  induction ls with
  | nil => exact fun _ ↦ rfl
  | cons l ls ih =>
    intro c
    rw [whole_cons, ih, Layer.tags_fill, outerTags, List.append_assoc]

/-- A whole script asks for what its layers ask for, outermost first, and then its chain. -/
theorem asked_whole (ls : List (Layer α)) : ∀ c : Chain α,
    (⟨ls, c⟩ : OpenScript α).whole.asked = outerAsked ls ++ c.asked := by
  induction ls with
  | nil => exact fun _ ↦ rfl
  | cons l ls ih =>
    intro c
    rw [whole_cons, ih, Layer.asked_fill, outerAsked, List.append_assoc]

/-- Forgetting tags commutes with closing all nesting blocks. -/
@[simp]
theorem erase_whole (o : OpenScript α) : o.whole.erase = o.erase.whole := by
  obtain ⟨ls, c⟩ := o
  induction ls generalizing c with
  | nil => rfl
  | cons l ls ih =>
    rw [whole_cons, ih]
    simp only [erase, List.map_cons, whole_cons, Layer.erase_fill]

end OpenScript

/-- Three words declare a name. -/
theorem Build.declaration?_isSome {name : String} {args : List String} :
    (declaration? name args).isSome ↔
      name = "make_var" ∨ name = "make_list" ∨ name = "make_broadcast" := by
  unfold declaration?
  split
  · simp_all
  · split
    · simp_all
    · split <;> simp_all

namespace Sheet

/-- The scripts of a sheet without tags are its scripts without tags. -/
@[simp]
theorem erase_scripts (σ : Sheet α) : σ.erase.scripts = σ.scripts.map Chain.erase := by
  unfold scripts erase
  cases σ.current <;> simp

/-- Whether a nesting block is open does not depend on tags. -/
@[simp]
theorem isNested_erase (σ : Sheet α) : σ.erase.isNested = σ.isNested := by
  unfold isNested erase
  cases σ.current <;> simp [OpenScript.erase]

/-- Forgetting tags commutes with starting a script. -/
@[simp]
theorem erase_start (σ : Sheet α) (head : Chain α) :
    (σ.start head).erase = σ.erase.start head.erase := by
  simp only [start, erase_scripts]
  rfl

/-- Forgetting tags commutes with placing a block. -/
@[simp]
theorem erase_place (command : Command) (line : Nat) (tag : α) (node : Node) (slots : Slots α)
    (σ : Sheet α) : (σ.place command line tag node slots).erase =
      σ.erase.place command line () node slots.erase := by
  unfold place
  cases command.kind <;> first
    | exact erase_start ..
    | (cases hc : σ.current <;> simp [erase, hc, OpenScript.erase, OpenScript.append,
        OpenScript.nest, Layer.erase, Chain.erase])

/-- Where a script is open, none has to be started. -/
theorem ensureScript_of_isSome {σ : Sheet Unit} (h : σ.current.isSome = true) :
    σ.ensureScript = σ :=
  if_pos h

/-- Forgetting tags commutes with an end, which is refused in the same places. -/
theorem erase_finish (line : Nat) (σ : Sheet α) :
    (σ.finish line).map erase = σ.erase.finish line := by
  obtain ⟨closed, current, declared⟩ := σ
  rcases current with - | ⟨- | ⟨l, ls⟩, c⟩
  · rfl
  · simp [finish, erase, OpenScript.erase, Except.map, pure, Except.pure]
  · simp [finish, erase, OpenScript.erase, Except.map, pure, Except.pure]

/-- Forgetting tags commutes with an else on a sheet. -/
theorem erase_enterElse (line : Nat) (σ : Sheet α) :
    (σ.enterElse line).map erase = σ.erase.enterElse line := by
  obtain ⟨closed, current, declared⟩ := σ
  rcases current with - | ⟨- | ⟨l, ls⟩, c⟩
  · rfl
  · rfl
  · simp only [enterElse, erase, OpenScript.erase, Option.map_some, List.map_cons]
    rw [← Layer.erase_enterElse]
    cases l.enterElse c <;> rfl

/-- Forgetting tags commutes with a declaration. -/
theorem erase_declare (line : Nat) (name : String) (args : List String) (σ : Sheet α) :
    (σ.declare line name args).map erase = σ.erase.declare line name args := by
  unfold declare
  cases Build.declaration? name args <;> rfl

/-! ### What a command does -/

/-- A declaration that succeeded added one name and changed nothing else. -/
theorem declare_eq_ok {n : Nat} {name : String} {args : List String} {σ τ : Sheet α}
    (h : σ.declare n name args = .ok τ) :
    ∃ kind initial, Build.declaration? name args = some (kind, initial) ∧
      { σ with declared := σ.declared ++
        [(kind, Text.nameOr (args.head?.getD "") kind.fallbackName)] } = τ := by
  unfold declare at h
  cases hdeclaration : Build.declaration? name args with
  | none =>
    rw [hdeclaration] at h
    cases h
  | some entry =>
    rw [hdeclaration] at h
    exact ⟨entry.1, entry.2, rfl, Except.ok.inj h⟩

section

variable {read : Reading.Reader} {target : TargetKind} {n : Nat} {c : Command}
  {tokens raw : List String} {σ τ : Sheet Unit}

/-- All that following a command can come to. A command that makes a block has to be available on
the target, and a head cannot stand inside a nesting block. -/
theorem command_eq_ok (h : σ.command read target n c tokens raw = .ok τ) :
    (c.kind = .finish ∧ σ.finish n = .ok τ) ∨
    (c.kind = .otherwise ∧ σ.enterElse n = .ok τ) ∨
    (c.kind = .declare ∧ σ.declare n c.name tokens = .ok τ) ∨
    c.isAvailableOn target = true ∧
      ((c.kind = .define ∧ σ.isNested = false ∧ σ.start (definition () () (signature tokens)) = τ) ∨
      (c.kind = .hat ∧ σ.isNested = false ∧ σ.statement read n c tokens raw = .ok τ) ∨
      ((c.kind = .stack ∨ c.kind = .call) ∨ c.kind = .nesting) ∧
        σ.ensureScript.statement read n c tokens raw = .ok τ) := by
  unfold command at h
  cases hkind : c.kind <;> simp only [hkind] at h
  case finish => exact .inl ⟨rfl, h⟩
  case otherwise => exact .inr (.inl ⟨rfl, h⟩)
  case declare => exact .inr (.inr (.inl ⟨rfl, h⟩))
  -- everything else has to be available and no expression
  all_goals
    obtain ⟨havailable, h⟩ := Reading.guard_eq_ok.1 h
    obtain ⟨hexpression, h⟩ := Reading.guard_eq_ok.1 h
    refine .inr (.inr (.inr ⟨by simpa using havailable, ?_⟩))
  case define =>
    obtain ⟨hnested, h⟩ := Reading.guard_eq_ok.1 h
    exact .inl ⟨rfl, hnested, Except.ok.inj h⟩
  case hat =>
    obtain ⟨hnested, h⟩ := Reading.guard_eq_ok.1 h
    exact .inr (.inl ⟨rfl, hnested, h⟩)
  case stack => exact .inr (.inr ⟨.inl (.inl rfl), h⟩)
  case call => exact .inr (.inr ⟨.inl (.inr rfl), h⟩)
  case nesting => exact .inr (.inr ⟨.inr rfl, h⟩)
  case reporter | boolean => cases hexpression

end

end Sheet

end BlockScript
