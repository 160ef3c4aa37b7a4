import BlockScript.Proofs.Plain
import BlockScript.Proofs.RoundTrip
import BlockScript.Proofs.Stack

/-!
# Where scripts begin and end in a listing

A listing sets the scripts of a target apart by empty lines, and these say nothing to whoever reads
it again: a script begins at a line that has a head, and goes on until the next one begins. Here the
target is any whose statements have constant arguments. The lines of a stack of statements are read
as this stack (`Stack.Held.listed`), at the end of the script that is open. So the listing of a
target is read as the scripts that its stacks make up one below the other
(`Sheet.takes_plainLines`), and the target that is built from it has a script for each of them
exactly if all but the first have a head (`Script.rebuilt_stacks`).
-/

namespace BlockScript

variable {catalog : Catalog} {kind : TargetKind} {t : Target} {b : Block} {c : Command}

/-! ### Reading statements -/

namespace Sheet

variable {σ : Sheet Unit}

theorem extend_extend (σ : Sheet Unit) (c d : Tree) :
    (σ.extend c).extend d = σ.extend (c.append d) := by
  unfold extend
  cases σ.current <;> simp [OpenScript.append, Chain.append_assoc]

@[simp]
theorem isSome_extend (σ : Sheet Unit) (c : Tree) :
    (σ.extend c).current.isSome = σ.current.isSome :=
  Option.isSome_map ..

@[simp]
theorem isSome_ensureScript (σ : Sheet Unit) : σ.ensureScript.current.isSome = true := by
  unfold ensureScript
  split
  · next h => exact h
  · rfl

end Sheet

variable (catalog kind) in
/-- The lines are read as these statements, at the end of the open script or of one that is started
for them. -/
def Stack.ReadsFrom (s : Stack Unit) (lines : List String) : Prop :=
  ∀ σ : Sheet Unit, (s = .nil → σ.current.isSome = true) →
    Sheet.Takes catalog kind lines σ fun τ ↦
      ∃ d : Tree, d.stack catalog = s ∧ τ = σ.ensureScript.extend d

namespace Stack.ReadsFrom

theorem nil : (Stack.nil : Stack Unit).ReadsFrom catalog kind [] := by
  intro σ hσ
  obtain ⟨o, ho⟩ := Option.isSome_iff_exists.1 (hσ rfl)
  refine .nil ⟨.nil, rfl, ?_⟩
  rw [Sheet.ensureScript_of_isSome (hσ rfl), Sheet.extend, ho, Option.map_some, OpenScript.append,
    Chain.append_nil, ← ho]

theorem cons {opcode : String} {first second rest : Stack Unit} {lines more : List String}
    (h : (Stack.cons () opcode first second .nil).ReadsFrom catalog kind lines)
    (hrest : rest.ReadsFrom catalog kind more) :
    (Stack.cons () opcode first second rest).ReadsFrom catalog kind (lines ++ more) := by
  intro σ _
  refine (h σ nofun).append ?_
  rintro τ ⟨d, hd, rfl⟩
  have hsome : (σ.ensureScript.extend d).current.isSome = true := by simp
  refine (hrest _ fun _ ↦ hsome).mono ?_
  rintro υ ⟨d', hd', rfl⟩
  refine ⟨d.append d', by rw [Chain.stack_append, hd, hd']; rfl, ?_⟩
  rw [Sheet.ensureScript_of_isSome hsome, Sheet.extend_extend]

/-- Statements below a nesting block are read into its active branch. -/
theorem inside {s : Stack Unit} {lines : List String} (h : s.ReadsFrom catalog kind lines)
    {σ : Sheet Unit} {l : Layer Unit} {ls : List (Layer Unit)}
    (hσ : σ.current = some ⟨l :: ls, .nil⟩) : Sheet.Takes catalog kind lines σ fun τ ↦
      ∃ d : Tree, d.stack catalog = s ∧ τ = { σ with current := some ⟨l :: ls, d⟩ } := by
  have hsome : σ.current.isSome = true := by rw [hσ]; rfl
  refine (h σ fun _ ↦ hsome).mono ?_
  rintro τ ⟨d, hd, rfl⟩
  exact ⟨d, hd, by rw [Sheet.ensureScript_of_isSome hsome, Sheet.extend, hσ]; rfl⟩

end Stack.ReadsFrom

/-! ### Statements -/

variable (catalog t) in
/-- A call, or a statement with constant arguments. -/
def Block.IsStatement (b : Block) : Prop :=
  b.opcode = Opcode.call ∨ ∃ c ∈ catalog.commands.values, c.kind ≠ .hat ∧ c.IsPlain t b

variable (catalog t) in
/-- A definition, or a hat with constant arguments. -/
def Block.IsHead (b : Block) : Prop :=
  b.opcode = Opcode.definition ∨ ∃ c ∈ catalog.commands.values, c.kind = .hat ∧ c.IsPlain t b

instance (b : Block) : Decidable (b.IsStatement catalog t) :=
  inferInstanceAs (Decidable (_ ∨ ∃ c ∈ _, _))

instance (b : Block) : Decidable (b.IsHead catalog t) :=
  inferInstanceAs (Decidable (_ ∨ ∃ c ∈ _, _))

section

variable (hcat : catalog.IsRegular)

include hcat

theorem Catalog.IsRegular.isHead_eq (hmem : c ∈ catalog.commands.values)
    (hopcode : c.opcode? = some b.opcode) :
    catalog.isHead b.opcode = (c.kind == .hat || c.kind == .define) := by
  rw [Catalog.isHead, hcat.commandFor? hmem hopcode]

theorem Block.IsHead.isHead (h : b.IsHead catalog t) : catalog.isHead b.opcode = true := by
  rcases h with h | ⟨c, hmem, hkind, hplain⟩
  · rw [hcat.isHead_eq (c := .definition) (hcat.essential _ (by decide)) (by rw [h]; rfl)]
    rfl
  · rw [hcat.isHead_eq hmem hplain.opcode, hkind]
    rfl

theorem Block.IsStatement.isHead (h : b.IsStatement catalog t) :
    catalog.isHead b.opcode = false := by
  rcases h with h | ⟨c, hmem, hkind, hplain⟩
  · rw [hcat.isHead_eq (c := .procedureCall) (hcat.essential _ (by decide)) (by rw [h]; rfl)]
    rfl
  · rw [hcat.isHead_eq hmem hplain.opcode]
    have hdefine := (CommandKind.isHeader_facts hplain.kind).2.2.1
    simp [hkind, hdefine]

theorem Block.branch_eq (hmem : c ∈ catalog.commands.values) (hopcode : c.opcode? = some b.opcode)
    (i : Nat) : b.branch catalog i =
      c.branchNames[i]?.bind fun name ↦ (b.inputs.find? name).bind Slot.connected? := by
  rw [Block.branch, hcat.branchNames_eq hmem hopcode]

theorem Sheet.takes_plain (hmem : c ∈ catalog.commands.values) (h : c.IsPlain t b) (depth : Nat)
    {σ : Sheet Unit} (hσ : c.kind = .hat → σ.isNested = false) :
    Takes catalog t.kind
      [Listing.indent depth (Listing.commandLine c.header.name (t.words c b))] σ fun τ ↦
        ∃ n node slots, τ = (if c.kind = .hat then σ else σ.ensureScript).place c.header n () node
          slots ∧ node.opcode = c.header.opcode ∧ slots.names = c.inputs.map (·.name) := by
  obtain ⟨hheader, -⟩ := hcat.header_eq hmem (CommandKind.isHeader_facts h.kind).1
  have hname := Listing.commandLine_ne_empty (name_ne_empty hcat hheader)
  refine .single (Listing.indent_ne_empty depth (hname _)) fun n ↦ ?_
  obtain ⟨node, slots, hline, hfacts⟩ := line_plain hcat hmem h n depth hσ
  exact ⟨_, hline, n, node, slots, rfl, hfacts⟩

/-- The block of a command without sub-chains, as a stack. -/
theorem Chain.stack_single (hmem : c ∈ catalog.commands.values) (hnesting : c.kind ≠ .nesting)
    {node : Node} (hopcode : c.opcode? = some node.opcode) (slots : Slots Unit) :
    (Chain.cons () node slots .nil).stack catalog = .cons () node.opcode .nil .nil .nil := by
  have hnames : catalog.branchNames node.opcode = [] := by
    rw [hcat.branchNames_eq hmem hopcode, Command.branchNames, if_neg hnesting]
  rw [Chain.stack, hnames]
  simp only [List.getElem?_nil, Slots.stackAt_none]
  rfl

namespace Stack.ReadsFrom

theorem call (signature : String) (depth : Nat) :
    (Stack.cons () Opcode.call .nil .nil .nil).ReadsFrom catalog kind
      [Listing.indent depth ("call " ++ signature)] := by
  intro σ _
  refine .single (Listing.indent_ne_empty depth (by simp)) fun n ↦ ?_
  have hmem : Command.procedureCall ∈ catalog.commands.values := hcat.essential _ (by decide)
  exact ⟨_, Sheet.line_call hcat signature n depth σ, _,
    Chain.stack_single hcat hmem (by decide) rfl _, rfl⟩

variable (hmem : c ∈ catalog.commands.values) (h : c.IsPlain t b) (depth : Nat)

include hmem h

theorem stack (hkind : c.kind = .stack) :
    (Stack.cons () b.opcode .nil .nil .nil).ReadsFrom catalog t.kind
      [Listing.indent depth (Listing.commandLine c.header.name (t.words c b))] := by
  have hnesting : c.kind ≠ .nesting := by rw [hkind]; decide
  have hhat : c.kind ≠ .hat := by rw [hkind]; decide
  have hblock := (CommandKind.isHeader_facts h.kind).1
  intro σ _
  refine (Sheet.takes_plain hcat hmem h depth fun hk ↦ absurd hk hhat).mono ?_
  rintro τ ⟨n, node, slots, rfl, hopcode, -⟩
  rw [hcat.header_of_ne hmem hblock hnesting, h.opcode_eq] at hopcode
  refine ⟨.cons () node slots .nil, ?_, ?_⟩
  · rw [Chain.stack_single hcat hmem hnesting (hopcode ▸ h.opcode), hopcode]
  · rw [if_neg hhat, Sheet.place, hcat.header_of_ne hmem hblock hnesting, hkind]
    rfl

/-- A header opens a nesting block, whose first branch is empty. -/
theorem header (hkind : c.kind = .nesting) {more : List String} {σ : Sheet Unit}
    {p : Sheet Unit → Prop} (hmore : ∀ n node slots o, node.opcode = c.header.opcode →
      slots.names = c.inputs.map (·.name) → σ.ensureScript.current = some o →
      Sheet.Takes catalog t.kind more
        { σ.ensureScript with current := some (o.nest () node slots c.header n) } p) :
    Sheet.Takes catalog t.kind
      (Listing.indent depth (Listing.commandLine c.header.name (t.words c b)) :: more) σ p := by
  have hhat : c.kind ≠ .hat := by rw [hkind]; decide
  have hheader : c.header.kind = .nesting :=
    (hcat.header_eq hmem (CommandKind.isHeader_facts h.kind).1).2.2.2.trans hkind
  rw [← List.singleton_append]
  refine (Sheet.takes_plain hcat hmem h depth fun hk ↦ absurd hk hhat).append ?_
  rintro τ ⟨n, node, slots, rfl, hopcode, hnames⟩
  obtain ⟨o, ho⟩ := Option.isSome_iff_exists.1 σ.isSome_ensureScript
  rw [if_neg hhat, Sheet.place, hheader, ho]
  exact hmore n node slots o hopcode hnames ho

/-- A block with a single sub-chain: its header opens it, and the word for the end closes it. -/
theorem loop (hkind : c.kind = .nesting) (helse : c.opcode ≠ Opcode.ifElse) {name : String}
    (hname : c.stackNames = [name]) (hbranch : (Branches.ofCommand c).active.input = name)
    {first : Stack Unit} {lines : List String} (hfirst : first.ReadsFrom catalog t.kind lines) :
    (Stack.cons () b.opcode first .nil .nil).ReadsFrom catalog t.kind
      (Listing.indent depth (Listing.commandLine c.header.name (t.words c b)) ::
        (lines ++ [Listing.indent depth ((catalog.keyword? .finish).getD "end")])) := by
  have hheader : c.header = c := if_neg helse
  have hbranchNames : c.branchNames = [name] := by rw [Command.branchNames, if_pos hkind, hname]
  intro σ _
  refine header hcat hmem h depth hkind fun n node slots o hopcode hnames ho ↦ ?_
  rw [hheader, h.opcode_eq] at hopcode
  rw [hheader]
  refine (hfirst.inside rfl).append ?_
  rintro τ ⟨d, hd, rfl⟩
  refine (Sheet.takes_finish hcat rfl depth).mono ?_
  rintro τ rfl
  refine ⟨.cons () node (slots.branch name d) .nil, ?_, ?_⟩
  · have hnot : name ∉ slots.names := by
      rw [hnames]
      intro hin
      exact (List.nodup_append.1 (Listing.branchNames_nodup hcat hmem)).2.2 name hin name
        (by simp [hbranchNames]) rfl
    rw [Chain.stack, hopcode, hcat.branchNames_eq hmem h.opcode, hbranchNames]
    show Stack.cons () b.opcode (Slots.stackAt catalog _ (some name)) (Slots.stackAt catalog _ none)
      .nil = _
    rw [Slots.stackAt_branch hnot, Slots.stackAt_none, hd]
  · rw [Sheet.extend, ho, ← hbranch]
    rfl

omit hmem in
/-- A conditional with two branches: its header opens one with a single branch, to which an else
adds the second. -/
theorem conditional (hcommand : c = .ifElse) {first second : Stack Unit} {lines more : List String}
    (hfirst : first.ReadsFrom catalog t.kind lines)
    (hsecond : second.ReadsFrom catalog t.kind more) :
    (Stack.cons () b.opcode first second .nil).ReadsFrom catalog t.kind
      (Listing.indent depth (Listing.commandLine c.header.name (t.words c b)) ::
        (lines ++ Listing.indent depth ((catalog.keyword? .otherwise).getD "else") :: more ++
          [Listing.indent depth ((catalog.keyword? .finish).getD "end")])) := by
  subst hcommand
  have hmem : Command.ifElse ∈ catalog.commands.values := hcat.essential _ (by decide)
  have hbranchNames : Command.ifElse.branchNames = ["SUBSTACK", "SUBSTACK2"] := rfl
  have hopcode : b.opcode = Opcode.ifElse := h.opcode_eq.symm
  intro σ _
  refine header hcat hmem h depth rfl fun n node slots o _ hnames ho ↦ ?_
  have hnot : "SUBSTACK" ∉ slots.names ∧ "SUBSTACK2" ∉ slots.names := by
    rw [hnames]
    decide
  rw [List.append_assoc]
  -- the lines of the first branch, the else, those of the second branch and the end
  refine (hfirst.inside rfl).append ?_
  rintro τ ⟨d, hd, rfl⟩
  rw [List.cons_append, ← List.singleton_append]
  refine (Sheet.takes_otherwise hcat rfl rfl depth).append ?_
  rintro τ rfl
  refine (hsecond.inside rfl).append ?_
  rintro τ ⟨d', hd', rfl⟩
  refine (Sheet.takes_finish hcat rfl depth).mono ?_
  rintro τ rfl
  refine ⟨.cons () { node with opcode := Opcode.ifElse }
    ((slots.branch "SUBSTACK" d).branch "SUBSTACK2" d') .nil, ?_, ?_⟩
  · have hnot' : "SUBSTACK2" ∉ (slots.branch "SUBSTACK" d).names := by
      intro hin
      rcases Slots.mem_names_branch hin with hin | hin
      · exact hnot.2 hin
      · revert hin
        decide
    have hfor : catalog.branchNames Opcode.ifElse = ["SUBSTACK", "SUBSTACK2"] :=
      (hcat.branchNames_eq hmem rfl).trans hbranchNames
    rw [Chain.stack, hfor, hopcode]
    show Stack.cons () Opcode.ifElse (Slots.stackAt catalog _ (some "SUBSTACK"))
      (Slots.stackAt catalog _ (some "SUBSTACK2")) .nil = _
    rw [Slots.stackAt_branch hnot', Slots.stackAt_branch_of_ne (by decide),
      Slots.stackAt_branch hnot.1, hd, hd']
  · rw [Sheet.extend, ho]
    rfl

end Stack.ReadsFrom

/-! ### Writing statements -/

variable (speak : Listing.Speak) {speakChain : Listing.SpeakChain}

/-- The line of a block without expressions, with its sub-chains below it. -/
theorem Listing.statement_plain (hmem : c ∈ catalog.commands.values) (h : c.IsPlain t b)
    (depth : Nat) : statement catalog t speak speakChain b depth =
      if c.kind = .nesting then do
        let body ← branches catalog speakChain b depth c.stackNames
        return indent depth (commandLine c.header.name (t.words c b)) ::
          (body ++ [indent depth ((catalog.keyword? .finish).getD "end")])
      else pure [indent depth (commandLine c.header.name (t.words c b))] := by
  obtain ⟨hblock, hexpr, hdefine, hcall⟩ := CommandKind.isHeader_facts h.kind
  obtain ⟨hheader, hfields, hinputs, hkind⟩ := hcat.header_eq hmem hblock
  obtain ⟨hne, hne'⟩ := hcat.opcode_ne hmem hblock hdefine
  have hopcode : b.opcode = c.opcode := h.opcode_eq.symm
  have hargs : arguments t speak .line c.header b = pure (t.words c b) := by
    rw [arguments_plain (hcat.regular _ hheader) .line (hinputs ▸ h.constant), Target.words,
      hfields, hinputs, Target.words]
  have hunfold : (b.opcode == Opcode.definition) = false ∧ (b.opcode == Opcode.call) = false := by
    simp [hopcode, hne, hne' hcall]
  simp only [statement, hunfold, Bool.false_eq_true, if_false, hkind, hargs, pure_bind,
    hcat.headerCommand? hmem hblock hexpr hopcode, hcat.stackNames hmem hblock _ hopcode]
  by_cases hnesting : c.kind = .nesting
  · simp [hnesting]
  · simp [hnesting]

variable (catalog t speakChain) in
/-- Whoever writes chains writes lines for this stack from which it is read again. -/
def Stack.Listed (s : Stack BlockId) (start : Option BlockId) : Prop :=
  ∀ depth, ∃ lines, Listing.Writes (speakChain start depth) s.tags lines ∧
    s.erase.ReadsFrom catalog t.kind lines

omit hcat in
theorem Stack.Held.eq_nil : ∀ {s : Stack BlockId}, s.Held catalog t none → s = .nil
  | .nil, _ => rfl

section

variable (hmem : c ∈ catalog.commands.values) (h : c.IsPlain t b) {first second : Stack BlockId}
  (hlisted : first.Listed catalog t speakChain (b.branch catalog 0)) (depth : Nat)
include hcat h hlisted

/-- A conditional with two branches. -/
theorem Command.IsPlain.listed_conditional (hcommand : c = .ifElse)
    (hlisted' : second.Listed catalog t speakChain (b.branch catalog 1)) :
    ∃ lines, Listing.Writes (Listing.statement catalog t speak speakChain b depth)
        (first.tags ++ second.tags) lines ∧
      (Stack.cons () b.opcode first.erase second.erase .nil).ReadsFrom catalog t.kind lines := by
  subst hcommand
  have hmem : Command.ifElse ∈ catalog.commands.values := hcat.essential _ (by decide)
  have hkind : Command.ifElse.kind = .nesting := rfl
  have hbranch := Block.branch_eq hcat hmem h.opcode
  rw [hbranch, Command.branchNames, if_pos hkind] at hlisted hlisted'
  rw [Listing.statement_plain hcat speak hmem h, if_pos hkind]
  obtain ⟨lines, hwrites, hreads⟩ := hlisted (depth + 1)
  obtain ⟨more, hwrites', hreads'⟩ := hlisted' (depth + 1)
  refine ⟨_, ?_, .conditional hcat h depth rfl hreads hreads'⟩
  have hsecond : Listing.Writes (Listing.branches catalog speakChain b depth ["SUBSTACK2"])
      second.tags more := hwrites'
  have hbranches : Listing.Writes
      (Listing.branches catalog speakChain b depth Command.ifElse.stackNames)
      (first.tags ++ (second.tags ++ []))
      (lines ++ Listing.indent depth ((catalog.keyword? .otherwise).getD "else") :: more) :=
    hwrites.bind (hsecond.bind (.pure _))
  rw [List.append_nil] at hbranches
  rw [← List.append_nil (first.tags ++ second.tags)]
  exact hbranches.bind (.pure _)

include hmem in
/-- A block with a single sub-chain. -/
theorem Command.IsPlain.listed_loop (hkind : c.kind = .nesting)
    (helse : c.opcode ≠ Opcode.ifElse) {name : String} (hname : c.stackNames = [name])
    (hactive : (Branches.ofCommand c).active.input = name)
    (hsecond : second.Held catalog t (b.branch catalog 1)) :
    ∃ lines, Listing.Writes (Listing.statement catalog t speak speakChain b depth)
        (first.tags ++ second.tags) lines ∧
      (Stack.cons () b.opcode first.erase second.erase .nil).ReadsFrom catalog t.kind lines := by
  have hbranch := Block.branch_eq hcat hmem h.opcode
  rw [hbranch, Command.branchNames, if_pos hkind, hname] at hlisted hsecond
  rw [Listing.statement_plain hcat speak hmem h, if_pos hkind, hname]
  obtain rfl := Stack.Held.eq_nil hsecond
  obtain ⟨lines, hwrites, hreads⟩ := hlisted (depth + 1)
  refine ⟨_, ?_, .loop hcat hmem h depth hkind helse hname hactive hreads⟩
  exact hwrites.bind (.pure _)

end

/-- A statement is written as lines from which it is read again, if its sub-chains are. -/
theorem Block.IsStatement.listed (h : b.IsStatement catalog t) {first second : Stack BlockId}
    (hfirst : first.Held catalog t (b.branch catalog 0))
    (hsecond : second.Held catalog t (b.branch catalog 1))
    (hlisted : first.Listed catalog t speakChain (b.branch catalog 0))
    (hlisted' : second.Listed catalog t speakChain (b.branch catalog 1)) (depth : Nat) :
    ∃ lines, Listing.Writes (Listing.statement catalog t speak speakChain b depth)
        (first.tags ++ second.tags) lines ∧
      (Stack.cons () b.opcode first.erase second.erase .nil).ReadsFrom catalog t.kind lines := by
  rcases h with hcall | ⟨c, hmem, hhat, hplain⟩
  · -- a call has no branches, so the stacks in them are empty
    have hbranch : ∀ i, b.branch catalog i = none := fun i ↦
      Block.branch_eq hcat (c := .procedureCall)
        (hcat.essential _ (by decide)) (by rw [hcall]; rfl) i
    obtain rfl := Stack.Held.eq_nil (hbranch 0 ▸ hfirst)
    obtain rfl := Stack.Held.eq_nil (hbranch 1 ▸ hsecond)
    rw [Listing.statement, hcall]
    exact ⟨_, .pure _, .call hcat (Listing.calledSignature b) depth⟩
  by_cases hkind : c.kind = .nesting
  · obtain rfl | hcommand | ⟨helse, name, hname, hbranches⟩ := hcat.nesting_cases hmem hkind
    · exact hplain.listed_loop hcat speak hmem hlisted depth hkind (by decide) rfl rfl hsecond
    · exact hplain.listed_conditional hcat speak hlisted depth hcommand hlisted'
    · exact hplain.listed_loop hcat speak hmem hlisted depth hkind helse hname
        (by rw [hbranches]; rfl) hsecond
  · rw [Block.branch_eq hcat hmem hplain.opcode, Command.branchNames,
      if_neg hkind] at hfirst hsecond
    obtain rfl := Stack.Held.eq_nil hfirst
    obtain rfl := Stack.Held.eq_nil hsecond
    rw [Listing.statement_plain hcat speak hmem hplain, if_neg hkind]
    refine ⟨_, .pure _, .stack hcat hmem hplain depth ?_⟩
    have hheader := hplain.kind
    cases hk : c.kind <;> simp_all [CommandKind.isHeader]

/-- **The lines of a stack of statements are read as this stack.** -/
theorem Stack.Held.listed : ∀ {s : Stack BlockId} {start : Option BlockId},
    s.Held catalog t start →
    (∀ id ∈ s.tags, ∀ b ∈ t.blocks.find? id, b.IsStatement catalog t) → ∀ bound : Nat,
      s.tags.length ≤ bound → s.Listed catalog t (Listing.chain catalog t bound) start
  | .nil, start, hheld, _, bound, _, depth => by
    obtain rfl : start = none := hheld
    exact ⟨[], by cases bound <;> exact .pure _, .nil⟩
  | .cons id opcode first second rest, start, hheld, hblocks, bound, hbound, depth => by
    obtain ⟨rfl, b, hb, rfl, hfirst, hsecond, hrest⟩ := hheld
    simp only [Stack.tags, List.mem_cons, List.mem_append] at hblocks
    simp only [Stack.tags, List.length_cons, List.length_append] at hbound
    obtain ⟨bound, rfl⟩ : ∃ smaller, bound = smaller + 1 := ⟨bound - 1, by omega⟩
    -- the sub-chains and the rest of the chain have one block less to enter
    have hlistedFirst := hfirst.listed (fun id hid ↦ hblocks id (by tauto)) bound (by omega)
    have hlistedSecond := hsecond.listed (fun id hid ↦ hblocks id (by tauto)) bound (by omega)
    obtain ⟨more, hmore, hreadsMore⟩ :=
      hrest.listed (fun id hid ↦ hblocks id (by tauto)) bound (by omega) depth
    obtain ⟨lines, hlines, hreads⟩ := (hblocks id (.inl rfl) b hb).listed hcat
      (Listing.expression catalog t bound) hfirst hsecond hlistedFirst hlistedSecond depth
    refine ⟨lines ++ more, ?_, hreads.cons hreadsMore⟩
    rw [Stack.tags, ← List.append_assoc]
    exact Listing.chain_writes hb hlines hmore

/-! ### Scripts -/

/-- No nesting block is open, and once there are scripts the last of them is. -/
structure Sheet.IsBetween (σ : Sheet Unit) : Prop where
  flat : σ.isNested = false
  started : σ.current = none → σ.closed = []

omit hcat in
theorem Sheet.IsBetween.of_current {σ : Sheet Unit} {c : Tree} (h : σ.current = some ⟨[], c⟩) :
    σ.IsBetween where
  flat := by rw [Sheet.isNested, h]; rfl
  started hnone := by simp [hnone] at h

omit hcat in
theorem Sheet.IsBetween.cases {σ : Sheet Unit} (h : σ.IsBetween) :
    (σ.current = none ∧ σ.closed = []) ∨ ∃ c, σ.current = some ⟨[], c⟩ := by
  rcases ho : σ.current with - | ⟨- | ⟨l, ls⟩, c⟩
  · exact .inl ⟨rfl, h.started ho⟩
  · exact .inr ⟨c, rfl⟩
  · have hflat := h.flat
    rw [Sheet.isNested, ho] at hflat
    cases hflat

variable (catalog) in
/-- The scripts of a sheet as stacks. -/
def Sheet.scriptStacks (σ : Sheet Unit) : List (Stack Unit) :=
  σ.scripts.map (Chain.stack catalog)

variable (catalog t) in
/-- The lines are read as one more stack below the scripts that are there. -/
def Stack.JoinsFrom (s : Stack Unit) (lines : List String) : Prop :=
  ∀ σ : Sheet Unit, σ.IsBetween → Sheet.Takes catalog t.kind lines σ fun τ ↦
    τ.IsBetween ∧ τ.scriptStacks catalog = Stack.join catalog (σ.scriptStacks catalog) s

omit hcat in
/-- Statements without a head go on with the last script. -/
theorem Stack.ReadsFrom.joins {s : Stack Unit} {lines : List String}
    (h : s.ReadsFrom catalog t.kind lines) (hne : s ≠ .nil) (hheaded : s.isHeaded catalog = false) :
    s.JoinsFrom catalog t lines := by
  intro σ hσ
  refine (h σ fun hnil ↦ absurd hnil hne).mono ?_
  rintro τ ⟨d, rfl, rfl⟩
  rw [Stack.join, hheaded, if_neg Bool.false_ne_true]
  rcases hσ.cases with ⟨hcurrent, hclosed⟩ | ⟨c, hcurrent⟩
  · have hτ : σ.ensureScript.extend d = { σ with current := some ⟨[],
        (Chain.cons () { opcode := Opcode.flagClicked } .nil .nil).append d⟩ } := by
      rw [Sheet.ensureScript, hcurrent]
      simp [Sheet.start, Sheet.extend, Sheet.scripts, hcurrent, OpenScript.append]
    rw [hτ]
    refine ⟨.of_current rfl, ?_⟩
    simp only [Sheet.scriptStacks, Sheet.scripts, hclosed, hcurrent]
    simp [OpenScript.whole, Chain.stack, Slots.stackAt, Stack.implicitHead, Stack.append,
      Chain.append]
  · have hτ : σ.ensureScript.extend d = { σ with current := some ⟨[], c.append d⟩ } := by
      rw [Sheet.ensureScript_of_isSome (by rw [hcurrent]; rfl), Sheet.extend, hcurrent]
      rfl
    rw [hτ]
    refine ⟨.of_current rfl, ?_⟩
    simp [Sheet.scriptStacks, Sheet.scripts, hcurrent, OpenScript.whole, Chain.stack_append]

omit hcat in
/-- A head starts a script, and the statements after it go on with it. -/
theorem Stack.JoinsFrom.of_head {opcode : String} {lines more : List String} {rest : Stack Unit}
    (hhead : catalog.isHead opcode = true)
    (h : ∀ σ : Sheet Unit, σ.isNested = false → Sheet.Takes catalog t.kind lines σ fun τ ↦
      ∃ d : Tree, d.stack catalog = .cons () opcode .nil .nil .nil ∧ τ = σ.start d)
    (hrest : rest.ReadsFrom catalog t.kind more) :
    (Stack.cons () opcode .nil .nil rest).JoinsFrom catalog t (lines ++ more) := by
  intro σ hσ
  refine (h σ hσ.flat).append ?_
  rintro τ ⟨d, hd, rfl⟩
  refine (hrest (σ.start d) fun _ ↦ rfl).mono ?_
  rintro υ ⟨d', hd', rfl⟩
  refine ⟨.of_current rfl, ?_⟩
  have hheaded : (Stack.cons () opcode .nil .nil rest).isHeaded catalog = true := hhead
  rw [Stack.join, if_pos hheaded]
  have hscripts : ((σ.start d).ensureScript.extend d').scripts = σ.scripts ++ [d.append d'] := rfl
  rw [Sheet.scriptStacks, hscripts, List.map_append, List.map_singleton, Chain.stack_append,
    hd, hd']
  rfl

/-- A head is written as a line that starts a script. -/
theorem Block.IsHead.listed (h : b.IsHead catalog t) (depth : Nat) :
    ∃ lines, Listing.Writes (Listing.statement catalog t speak speakChain b depth) [] lines ∧
      (∀ i, b.branch catalog i = none) ∧
      ∀ σ : Sheet Unit, σ.isNested = false → Sheet.Takes catalog t.kind lines σ fun τ ↦
        ∃ d : Tree, d.stack catalog = .cons () b.opcode .nil .nil .nil ∧ τ = σ.start d := by
  rcases h with hopcode | ⟨c, hmem, hkind, hplain⟩
  · -- a definition is written as one line, whatever its slots hold
    have hmem : Command.definition ∈ catalog.commands.values := hcat.essential _ (by decide)
    rw [Listing.statement, hopcode]
    refine ⟨_, .pure _, Block.branch_eq hcat hmem (by rw [hopcode]; rfl), fun σ hσ ↦ ?_⟩
    refine .single (Listing.indent_ne_empty depth (by simp)) fun n ↦ ?_
    exact ⟨_, Sheet.line_define hcat (Listing.definedSignature t b) n depth hσ, _,
      Chain.stack_single hcat hmem (by decide) rfl _, rfl⟩
  · have hnesting : c.kind ≠ .nesting := by rw [hkind]; decide
    have hblock := (CommandKind.isHeader_facts hplain.kind).1
    rw [Listing.statement_plain hcat speak hmem hplain, if_neg hnesting]
    refine ⟨_, .pure _, fun i ↦ ?_, fun σ hσ ↦ ?_⟩
    · rw [Block.branch_eq hcat hmem hplain.opcode, Command.branchNames, if_neg hnesting]
      rfl
    · refine (Sheet.takes_plain hcat hmem hplain depth fun _ ↦ hσ).mono ?_
      rintro τ ⟨n, node, slots, rfl, hopcode, -⟩
      rw [hcat.header_of_ne hmem hblock hnesting, hplain.opcode_eq] at hopcode
      refine ⟨.cons () node slots .nil, ?_, ?_⟩
      · rw [Chain.stack_single hcat hmem hnesting (hopcode ▸ hplain.opcode), hopcode]
      · rw [if_pos hkind, Sheet.place, hcat.header_of_ne hmem hblock hnesting, hkind]

variable (catalog t) in
/-- A script of statements with constant arguments. Its first block may be a head, and no other
is. -/
structure Stack.IsPlain (s : Stack BlockId) : Prop where
  head : ∀ id ∈ s.tags.head?, ∀ b ∈ t.blocks.find? id, b.IsHead catalog t ∨ b.IsStatement catalog t
  body : ∀ id ∈ s.tags.tail, ∀ b ∈ t.blocks.find? id, b.IsStatement catalog t

omit hcat in
instance (s : Stack BlockId) : Decidable (s.IsPlain catalog t) :=
  decidable_of_iff
    ((∀ id ∈ s.tags.head?, ∀ b ∈ t.blocks.find? id, b.IsHead catalog t ∨ b.IsStatement catalog t) ∧
      ∀ id ∈ s.tags.tail, ∀ b ∈ t.blocks.find? id, b.IsStatement catalog t)
    ⟨fun ⟨hhead, hbody⟩ ↦ ⟨hhead, hbody⟩, fun h ↦ ⟨h.head, h.body⟩⟩

/-- A script is written as lines that are read as one more stack below the scripts before it. -/
theorem Stack.Held.joins {s : Stack BlockId} {root : BlockId} (hheld : s.Held catalog t (some root))
    (hplain : s.IsPlain catalog t) {bound : Nat} (hbound : s.tags.length ≤ bound) :
    ∃ lines, Listing.Writes (Listing.chain catalog t bound (some root) 0) s.tags lines ∧
      s.erase.JoinsFrom catalog t lines := by
  cases s with
  | nil => cases hheld
  | cons id opcode first second rest =>
    have hall := hheld
    obtain ⟨hid, b, hb, rfl, hfirst, hsecond, hrest⟩ := hheld
    obtain rfl := Option.some.inj hid
    rcases hplain.head root rfl b hb with hhead | hstatement
    · obtain ⟨bound, rfl⟩ : ∃ smaller, bound = smaller + 1 := by
        refine ⟨bound - 1, ?_⟩
        simp only [Stack.tags, List.length_cons] at hbound
        omega
      obtain ⟨lines, hlines, hbranch, hstarts⟩ := hhead.listed hcat
        (Listing.expression catalog t bound) 0
      -- a head has no branches
      obtain rfl := Stack.Held.eq_nil (hbranch 0 ▸ hfirst)
      obtain rfl := Stack.Held.eq_nil (hbranch 1 ▸ hsecond)
      have hlength : rest.tags.length ≤ bound := by
        simp only [Stack.tags, List.nil_append, List.length_cons] at hbound
        omega
      obtain ⟨more, hmore, hreads⟩ := hrest.listed hcat hplain.body bound hlength 0
      exact ⟨lines ++ more, Listing.chain_writes hb hlines hmore,
        .of_head (hhead.isHead hcat) hstarts hreads⟩
    · have hblocks : ∀ id ∈ root :: (first.tags ++ (second.tags ++ rest.tags)),
          ∀ b ∈ t.blocks.find? id, b.IsStatement catalog t := by
        intro id hid
        rcases List.mem_cons.1 hid with rfl | hid
        · intro b' hb'
          exact Option.some.inj (hb.symm.trans hb') ▸ hstatement
        · exact hplain.body id hid
      obtain ⟨lines, hlines, hreads⟩ := hall.listed hcat hblocks bound hbound 0
      exact ⟨lines, hlines, hreads.joins nofun (hstatement.isHead hcat)⟩

omit hcat in
/-- Scripts are read as their stacks one below the other. -/
theorem Listing.exists_scripts {work : BlockId → Writer (List String)} :
    ∀ {roots : List BlockId} {parts : List (Stack BlockId)},
      List.Forall₂ (fun root s ↦ ∃ lines, Writes (work root) (Stack.tags s) lines ∧
        s.erase.JoinsFrom catalog t lines) roots parts →
      ∃ scripts : List (List String), Writes (roots.mapM work) (parts.flatMap Stack.tags) scripts ∧
        ∀ σ : Sheet Unit, σ.IsBetween → Sheet.Takes catalog t.kind scripts.flatten σ fun τ ↦
          τ.IsBetween ∧ τ.scriptStacks catalog =
            (parts.map Stack.erase).foldl (Stack.join catalog) (σ.scriptStacks catalog)
  | [], _, .nil => ⟨[], .pure _, fun _ hσ ↦ .nil ⟨hσ, rfl⟩⟩
  | root :: roots, s :: parts, .cons ⟨lines, hlines, hjoins⟩ h => by
    obtain ⟨scripts, hscripts, htakes⟩ := exists_scripts h
    refine ⟨lines :: scripts, ?_, fun σ hσ ↦ ?_⟩
    · rw [List.mapM_cons, List.flatMap_cons, ← List.append_nil (parts.flatMap Stack.tags)]
      exact hlines.bind (hscripts.bind (.pure _))
    · refine (hjoins σ hσ).append ?_
      rintro τ ⟨hτ, hstacks⟩
      refine (htakes τ hτ).mono ?_
      rintro υ ⟨hυ, hall⟩
      exact ⟨hυ, by rw [hall, hstacks]; rfl⟩

end

/-! ### Targets -/

/-- The target with its names as they are listed. -/
def Target.named (t : Target) : Target :=
  let fallback := if t.isStage then "stage_var" else "sprite_var"
  { t with
    vars := t.vars.map fun v ↦ { v with name := Text.nameOr v.name fallback }
    lists := t.lists.map fun s ↦ { s with name := Text.nameOr s.name "list" }
    broadcasts := t.broadcasts.map fun s ↦
      { s with name := Text.nameOr s.name SymbolKind.broadcasts.fallbackName } }

theorem Target.isProper_variableFallback (t : Target) :
    Text.isProper (if t.isStage then "stage_var" else "sprite_var") = true := by
  split <;> decide

theorem Target.isNamed_named (t : Target) : t.named.IsNamed := by
  have hlist : Text.isProper "list" = true := by decide
  have hbroadcast : Text.isProper SymbolKind.broadcasts.fallbackName = true := by decide
  refine ⟨fun v hv ↦ ?_, fun s hs ↦ ?_, fun s hs ↦ ?_⟩
  · simp only [named, List.mem_map] at hv
    obtain ⟨v, -, rfl⟩ := hv
    dsimp only
    exact Text.isProper_nameOr _ t.isProper_variableFallback
  all_goals
    simp only [named, List.mem_map] at hs
    obtain ⟨s, -, rfl⟩ := hs
    dsimp only
  · exact Text.isProper_nameOr _ hlist
  · exact Text.isProper_nameOr _ hbroadcast

theorem Listing.symbolLines_named (command : String) {fallback : String}
    (h : Text.isProper fallback = true) (symbols : List Symbol) :
    symbolLines command fallback
      (symbols.map fun s ↦ { s with name := Text.nameOr s.name fallback }) =
        symbolLines command fallback symbols := by
  have hname : ∀ name, Text.nameOr (Text.nameOr name fallback) fallback =
      Text.nameOr name fallback := fun name ↦
    Text.nameOr_of_isProper (Text.isProper_nameOr name h) fallback
  simp only [symbolLines, List.map_map, Function.comp_def, hname]

theorem Listing.declarationLines_named (t : Target) :
    declarationLines t.named = declarationLines t := by
  have hvars : variableLines t.named = variableLines t := by
    have hname : ∀ name, Text.nameOr (Text.nameOr name
        (if t.isStage then "stage_var" else "sprite_var"))
        (if t.isStage then "stage_var" else "sprite_var") =
          Text.nameOr name (if t.isStage then "stage_var" else "sprite_var") := fun name ↦
      Text.nameOr_of_isProper (Text.isProper_nameOr name t.isProper_variableFallback) _
    have hstage : t.named.isStage = t.isStage := rfl
    simp only [variableLines, hstage]
    simp only [Target.named, List.map_map, Function.comp_def, hname]
  unfold declarationLines
  rw [hvars]
  show variableLines t ++ symbolLines "make_list" "list" (t.lists.map _) ++
    (if t.isStage = true then symbolLines "make_broadcast" _ (t.broadcasts.map _) else []) = _
  rw [symbolLines_named _ (by decide), symbolLines_named _ (by decide)]

/-- **The listing of a target with constant arguments is read as its stacks one below the
other.** -/
theorem Sheet.takes_plainLines (hcat : catalog.IsRegular) {parts : List (Stack BlockId)}
    (hheld : List.Forall₂ (fun root s ↦ Stack.Held catalog t s (some root)) t.roots parts)
    (howned : (parts.flatMap Stack.tags).Nodup) (hplain : ∀ s ∈ parts, s.IsPlain catalog t) :
    Takes catalog t.kind (Listing.targetLines catalog t).1 {} fun τ ↦
      τ.IsBetween ∧ τ.scriptStacks catalog = Stack.scripts catalog (parts.map Stack.erase) := by
  have hroots : List.Forall₂ (fun root s ↦ ∃ lines,
      Listing.Writes (Listing.chain catalog t t.blocks.size (some root) 0) (Stack.tags s) lines ∧
        s.erase.JoinsFrom catalog t lines) t.roots parts := by
    obtain ⟨hlength, hzip⟩ := List.forall₂_iff_zip.1 hheld
    refine List.forall₂_iff_zip.2 ⟨hlength, fun {root s} hmem ↦ ?_⟩
    have hs : s ∈ parts := (List.of_mem_zip hmem).2
    -- a stack has no more blocks than the target, so the walk has room for it
    have hbound : s.tags.length ≤ t.blocks.size :=
      calc s.tags.length ≤ t.blocks.keys.length :=
            (List.subperm_of_subset ((List.nodup_flatMap.1 howned).1 s hs)
              (hzip hmem).mem_keys).length_le
        _ = t.blocks.size := List.length_map ..
    exact (hzip hmem).joins hcat (hplain s hs) hbound
  obtain ⟨scripts, hwrites, htakes⟩ := Listing.exists_scripts hroots
  have hlines : Listing.inked (Listing.targetLines catalog t).1 =
      Listing.inked (Listing.declarationLines t ++ scripts.flatten) := by
    have hrun : (Listing.scripts catalog t).run {} = _ := hwrites {} howned
    rw [Listing.targetLines, hrun, Listing.inked_dropTrailingBlank,
      Listing.inked_foldl_appendScript]
  refine Takes.congr ?_ hlines
  rw [← Listing.declarationLines_named]
  refine (takes_declarationLines hcat t.isNamed_named {}).append ?_
  rintro τ ⟨more, rfl, -⟩
  exact htakes _ ⟨rfl, fun _ ↦ rfl⟩

/-- Blocks that unfold to trees hold the statements of these trees. -/
theorem TargetBuild.exists_stacks (catalog : Catalog) {built : TargetBuild} :
    ∀ {roots : List BlockId} {trees : List Tree}, List.Forall₂ built.Unfolds roots trees →
    ∃ parts : List (Stack BlockId),
      List.Forall₂ (fun root s ↦ Stack.Held catalog built.target s (some root)) roots parts ∧
        parts.map Stack.erase = trees.map (Chain.stack catalog)
  | [], _, .nil => ⟨[], .nil, rfl⟩
  | root :: roots, tree :: trees, .cons ⟨c, s, hstart, herase, hheld⟩ h => by
    obtain ⟨parts, hstacks, hmap⟩ := exists_stacks catalog h
    refine ⟨c.stack catalog :: parts, .cons (hstart ▸ hheld.stack) hstacks, ?_⟩
    rw [List.map_cons, List.map_cons, hmap, Chain.erase_stack, herase]

/-- **Scripts of a listing are kept apart by their heads.** The listing of a target whose statements
have constant arguments builds a target again, with the same statements. Its scripts are the stacks
of the first target one below the other, so each of them is a script of its own, with a head if it
had none, exactly if all but the first had one. -/
theorem Script.rebuilt_stacks {t : Target} {parts : List (Stack BlockId)} {again : List SourceLine}
    (hheld : List.Forall₂ (fun root s ↦ Stack.Held .builtin t s (some root)) t.roots parts)
    (howned : (parts.flatMap Stack.tags).Nodup) (hplain : ∀ s ∈ parts, s.IsPlain .builtin t)
    (hagain : again.map SourceLine.text = (Listing.targetLines .builtin t).1) :
    ∃ rebuilt, build .builtin t.kind again = .ok rebuilt ∧ ∃ scripts : List (Stack BlockId),
      List.Forall₂ (fun root s ↦ Stack.Held .builtin rebuilt.target s (some root))
        rebuilt.target.roots scripts ∧
      scripts.map Stack.erase = Stack.scripts .builtin (parts.map Stack.erase) ∧
      (scripts.map Stack.erase = parts.map (fun s ↦ s.erase.alone .builtin) ↔
        ∀ s ∈ parts.tail, s.isHeaded .builtin = true) := by
  have hcat := Catalog.builtin_isRegular
  obtain ⟨τ, hread, -, hstacks⟩ :=
    (Sheet.takes_plainLines hcat hheld howned hplain).read (fun _ h ↦ h.1.flat) hagain
  obtain ⟨σ, d, rfl, hσ, hbuild⟩ := build_of_read hcat.distinct hread
  have hshaped := Sheet.isShaped_of_read hcat hread
  have hroots := hσ.roots_unfold t.kind (targetName t.kind) fun c hc ↦
    (hshaped.scripts c hc).head hcat
  obtain ⟨scripts, hscripts, hmap⟩ := TargetBuild.exists_stacks .builtin hroots
  have hall : scripts.map Stack.erase = Stack.scripts .builtin (parts.map Stack.erase) :=
    hmap.trans hstacks
  refine ⟨_, hbuild, scripts, hscripts, hall, ?_⟩
  have halone : parts.map (fun s ↦ s.erase.alone .builtin) =
      (parts.map Stack.erase).map (Stack.alone .builtin) := by
    rw [List.map_map]
    rfl
  -- a script goes on with the one before it exactly if it has no head
  rw [hall, halone, Stack.scripts_eq_map_alone, ← List.map_tail, List.forall_mem_map]
  simp only [Stack.isHeaded_erase]

/-- A statement without a head, a script with a loop, and below it another statement without a
head. -/
def looseTarget : Target where
  kind := .sprite
  name := "Cat"
  blocks := Dict.ofList [
    ("a", { opcode := "looks_show", place := some ⟨0, 0⟩ }),
    ("b", { opcode := Opcode.flagClicked, next := some "c", place := some ⟨0, 200⟩ }),
    ("c", {
      opcode := "control_repeat"
      parent := some "b"
      inputs := Dict.ofList [("TIMES", .literal ⟨.number, "3"⟩), ("SUBSTACK", .block "d")] }),
    ("d", {
      opcode := "looks_say"
      parent := some "c"
      inputs := Dict.ofList [("MESSAGE", .literal (.ofText "a b"))] }),
    ("e", { opcode := "looks_hide", place := some ⟨0, 400⟩ })]

/-- The statements of this target. -/
def looseStacks : List (Stack BlockId) :=
  [.cons "a" "looks_show" .nil .nil .nil,
    .cons "b" Opcode.flagClicked .nil .nil
      (.cons "c" "control_repeat" (.cons "d" "looks_say" .nil .nil .nil) .nil .nil),
    .cons "e" "looks_hide" .nil .nil .nil]

theorem Script.rebuilt_stacks_loose :
    (Stack.scripts .builtin (looseStacks.map Stack.erase)).length = 2 ∧
    ∃ rebuilt, build .builtin .sprite
        (Listing.numbered (Listing.targetLines .builtin looseTarget).1) = .ok rebuilt ∧
      ∃ scripts : List (Stack BlockId),
        List.Forall₂ (fun root s ↦ Stack.Held .builtin rebuilt.target s (some root))
          rebuilt.target.roots scripts ∧
        scripts.map Stack.erase = Stack.scripts .builtin (looseStacks.map Stack.erase) ∧
        (scripts.map Stack.erase = looseStacks.map (fun s ↦ s.erase.alone .builtin) ↔
          ∀ s ∈ looseStacks.tail, s.isHeaded .builtin = true) := by
  have hfacts : (Stack.scripts .builtin (looseStacks.map Stack.erase)).length = 2 ∧
      List.Forall₂ (fun root s ↦ Stack.Held .builtin looseTarget s (some root)) ["a", "b", "e"]
        looseStacks ∧ ∀ s ∈ looseStacks, s.IsPlain .builtin looseTarget := by decide +kernel
  have hroots : looseTarget.roots = ["a", "b", "e"] := by
    have hsorted : (looseTarget.blocks.entries.filter fun entry ↦ Target.isRoot entry.2).Pairwise
        fun a b ↦ Target.comesBefore a b = true := by decide +kernel
    rw [Target.roots, List.mergeSort_of_pairwise hsorted]
    decide +kernel
  exact ⟨hfacts.1, rebuilt_stacks (t := looseTarget) (hroots ▸ hfacts.2.1) (by decide) hfacts.2.2
    (Listing.text_numbered _)⟩

end BlockScript
