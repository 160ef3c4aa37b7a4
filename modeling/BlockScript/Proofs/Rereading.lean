import BlockScript.Proofs.Headline
import BlockScript.Proofs.Listed

/-!
# Reading a written script

The lines that a listing writes for a script are read as a script that resembles it. `Sheet.Takes`
says what becomes of a sheet when some lines are read, however they are numbered and whatever empty
lines stand between them; its rules follow the lines one by one (`Sheet.Takes.append`,
`Sheet.Takes.single`). From what one line does (`Sheet.line_header`) the statements of a body follow
by induction over it (`Chain.IsBody.rereads`), and then scripts (`Sheet.takes_script`) and lists of
them (`Sheet.takes_scripts`).
-/

namespace BlockScript

variable {catalog : Catalog} {target : TargetKind} {symbols : Symbols}

/-! ### Reading lines -/

namespace Sheet

/-- Reading these lines from a sheet gives one with the property, however the lines are numbered and
whatever empty lines stand between them. -/
def Takes (catalog : Catalog) (target : TargetKind) (lines : List String) (σ : Sheet Unit)
    (p : Sheet Unit → Prop) : Prop :=
  ∀ sources : List SourceLine, Listing.inked (sources.map SourceLine.text) = Listing.inked lines →
    ∃ τ, sources.foldlM (fun σ source ↦ line catalog target source σ) σ = .ok τ ∧ p τ

variable {σ : Sheet Unit} {p q : Sheet Unit → Prop} {lines more : List String}

/-- An empty line says nothing. -/
theorem line_empty {source : SourceLine} (h : source.text = "") :
    σ.line catalog target source = .ok σ := by
  have htrim : Text.trim source.text = "" := by rw [h]; rfl
  rw [Sheet.line, htrim]
  rfl

namespace Takes

theorem nil (h : p σ) : Takes catalog target [] σ p := by
  intro sources hsources
  refine ⟨σ, ?_, h⟩
  induction sources with
  | nil => rfl
  | cons source sources ih =>
    simp only [Listing.inked, List.map_cons, List.filter_nil, List.filter_eq_nil_iff,
      List.mem_cons, forall_eq_or_imp] at hsources ih
    have hempty : source.text = "" := by simpa using hsources.1
    rw [List.foldlM_cons, line_empty hempty]
    exact ih hsources.2

theorem append (h : Takes catalog target lines σ q)
    (hmore : ∀ τ, q τ → Takes catalog target more τ p) :
    Takes catalog target (lines ++ more) σ p := by
  intro sources hsources
  rw [Listing.inked_append, Listing.inked, List.filter_eq_append_iff] at hsources
  obtain ⟨front, back, hsplit, hfront, hback⟩ := hsources
  obtain ⟨first, second, rfl, rfl, rfl⟩ := List.map_eq_append_iff.1 hsplit
  obtain ⟨τ, hτ, hq⟩ := h first hfront
  obtain ⟨υ, hυ, hp⟩ := hmore τ hq second hback
  refine ⟨υ, ?_, hp⟩
  rw [List.foldlM_append, hτ]
  exact hυ

theorem single {text : String} (hne : text ≠ "")
    (h : ∀ n, ∃ τ, σ.line catalog target ⟨n, text⟩ = .ok τ ∧ p τ) :
    Takes catalog target [text] σ p := by
  intro sources hsources
  induction sources with
  | nil => simp [Listing.inked, hne] at hsources
  | cons source sources ih =>
    by_cases hempty : source.text = ""
    · rw [List.foldlM_cons, line_empty hempty]
      refine ih ?_
      rw [← hsources]
      simp [Listing.inked, hempty]
    · -- this is the line, and only empty ones follow
      have hboth : source.text = text ∧ Listing.inked (sources.map SourceLine.text) = [] := by
        simpa [Listing.inked, hempty, hne] using hsources
      obtain ⟨rfl, hrest⟩ := hboth
      obtain ⟨τ, hτ, hp⟩ := h source.line
      rw [List.foldlM_cons, hτ]
      exact Takes.nil hp sources (by rw [hrest]; rfl)

theorem mono (h : Takes catalog target lines σ q) (hqp : ∀ τ, q τ → p τ) :
    Takes catalog target lines σ p := by
  intro sources hsources
  obtain ⟨τ, hτ, hq⟩ := h sources hsources
  exact ⟨τ, hτ, hqp τ hq⟩

/-- Empty lines do not matter. -/
theorem congr (h : Takes catalog target lines σ p)
    (hlines : Listing.inked more = Listing.inked lines) : Takes catalog target more σ p :=
  fun sources hsources ↦ h sources (hsources.trans hlines)

/-- Lines after which no nesting block is open can be read. -/
theorem read (h : Takes catalog target lines {} p) (hp : ∀ τ, p τ → τ.isNested = false)
    {sources : List SourceLine} (hsources : sources.map SourceLine.text = lines) :
    ∃ τ, Sheet.read catalog target sources = .ok τ ∧ p τ := by
  obtain ⟨τ, hτ, hpτ⟩ := h sources (congrArg Listing.inked hsources)
  have hnested := hp τ hpτ
  have hdone : τ.done = .ok τ := by
    unfold Sheet.done
    split
    · next hcurrent => simp [Sheet.isNested, hcurrent] at hnested
    · rfl
  refine ⟨τ, ?_, hpτ⟩
  rw [Sheet.read, hτ]
  exact hdone

end Takes

/-! ### Words of the grammar -/

/-- A line with nothing but the word of a command is followed as that command. -/
theorem line_keyword (hcat : catalog.IsRegular) {c : Command} (hc : c ∈ catalog.commands.values)
    (n depth : Nat) (σ : Sheet Unit) : ∃ read,
      σ.line catalog target ⟨n, Listing.indent depth c.name⟩ = σ.command read target n c [] [] := by
  have hname : Listing.commandLine c.name [] = c.name :=
    String.toList_inj.1 (by simp [Listing.commandLine, Text.toList_join])
  refine ⟨Reading.expression catalog target n (catalog.nestingBound c.name.length), ?_⟩
  have hline :
      σ.line catalog target ⟨n, Listing.indent depth (Listing.commandLine c.name [])⟩ = _ :=
    Sheet.line_words (hcat.regular c hc).name (hcat.resolve c hc)
      (fun _ hw ↦ absurd hw List.not_mem_nil) (fun _ hw ↦ absurd hw List.not_mem_nil) rfl n depth σ
  rwa [hname] at hline

theorem name_ne_empty (hcat : catalog.IsRegular) {c : Command} (hc : c ∈ catalog.commands.values) :
    c.name ≠ "" := by
  intro hempty
  have hname := (hcat.regular c hc).name
  rw [hempty] at hname
  cases hname

/-- A line with nothing but the word for a kind of command is followed as a command of this kind. -/
theorem takes_keyword (hcat : catalog.IsRegular) {c : Command} (hc : c ∈ Catalog.essential)
    (hhidden : c.hidden = false) (fallback : String) (depth : Nat)
    (h : ∀ read n d, Command.kind d = c.kind → ∃ τ, σ.command read target n d [] [] = .ok τ ∧ p τ) :
    Takes catalog target [Listing.indent depth ((catalog.keyword? c.kind).getD fallback)] σ p := by
  obtain ⟨d, hd, hkind, hword⟩ := Catalog.exists_keyword (hcat.essential _ hc) hhidden
  rw [hword, Option.getD_some]
  refine .single (Listing.indent_ne_empty depth (name_ne_empty hcat hd)) fun n ↦ ?_
  obtain ⟨read, hline⟩ := line_keyword hcat hd n depth σ
  rw [hline]
  exact h read n d hkind

variable {l l' : Layer Unit} {ls : List (Layer Unit)} {c : Tree}

/-- The word for the end closes the innermost nesting block. -/
theorem takes_finish (hcat : catalog.IsRegular) (hσ : σ.current = some ⟨l :: ls, c⟩) (depth : Nat) :
    Takes catalog target [Listing.indent depth ((catalog.keyword? .finish).getD "end")] σ
      (· = { σ with current := some ⟨ls, l.fill c⟩ }) := by
  refine takes_keyword hcat (c := { name := "end", kind := .finish }) (by decide) rfl _ depth
    fun read n d hkind ↦ ⟨_, ?_, rfl⟩
  have hkind : d.kind = .finish := hkind
  rw [Sheet.command, hkind, Sheet.finish, hσ]
  rfl

/-- The word for else goes on to the second branch of the innermost nesting block. -/
theorem takes_otherwise (hcat : catalog.IsRegular) (hσ : σ.current = some ⟨l :: ls, c⟩)
    (helse : l.enterElse c = .ok l') (depth : Nat) :
    Takes catalog target [Listing.indent depth ((catalog.keyword? .otherwise).getD "else")] σ
      (· = { σ with current := some ⟨l' :: ls, .nil⟩ }) := by
  refine takes_keyword hcat (c := { name := "else", kind := .otherwise }) (by decide) rfl _ depth
    fun read n d hkind ↦ ⟨_, ?_, rfl⟩
  have hkind : d.kind = .otherwise := hkind
  rw [Sheet.command, hkind]
  simp only [Sheet.enterElse, hσ, helse]
  rfl

end Sheet

/-! ### Branches -/

namespace Slots

variable {α : Type} {s : Slots α} {u : Slots Unit}

theorem append_branch (s : Slots α) (input : String) (c : Chain α) :
    s.append (Slots.nil.branch input c) = s.branch input c := by
  cases c with
  | nil => exact s.append_nil
  | cons => rfl

theorem mem_names_branch {name input : String} {c : Chain α} (h : name ∈ (s.branch input c).names) :
    name ∈ s.names ∨ name = input := by
  cases c with
  | nil => exact .inl h
  | cons =>
    rw [branch, names_append, List.mem_append] at h
    simpa [names] using h

/-- A sub-chain reads back if it does so by itself. -/
theorem Recall.branch (h : s.Recall symbols false u) (input : String) {c : Chain α} {d : Tree}
    (hc : c.Recalls symbols d) : (s.branch input c).Recall symbols false (u.branch input d) := by
  match c, d, hc with
  | .nil, .nil, _ => exact h
  | .cons .., .cons .., hc =>
    exact h.append (.cons nofun hc Chain.recalls_nil (recall_nil _))
  | .nil, .cons .., ⟨hresembles, _⟩ => exact hresembles.elim
  | .cons .., .nil, ⟨hresembles, _⟩ => exact hresembles.elim

theorem EachValue.first {p : Chain α → Prop} (hnil : p .nil) {name : String} {value : Chain α}
    {rest : Slots α} (h : ((Slots.nil.branch name value).append rest).EachValue p) :
    p value ∧ rest.EachValue p := by
  cases value with
  | nil => exact ⟨hnil, h⟩
  | cons => exact h

variable {slots : Slots BlockId} {input name : String}

theorem lookup_branch (h : input ∉ slots.names) (c : Chain BlockId) (depth : Nat) :
    (((slots.branch input c).bodies catalog symbols depth).lookup input).getD [] =
      c.lines catalog symbols depth := by
  have hnone : (slots.bodies catalog symbols depth).lookup input = none :=
    Listing.bodies_lookup_of_notMem depth h
  cases c with
  | nil => simp [branch, hnone, Chain.lines]
  | cons => simp [branch, bodies_append, List.lookup_append, hnone, bodies]

theorem lookup_branch_of_ne (h : name ≠ input) (c : Chain BlockId) (depth : Nat) :
    ((slots.branch input c).bodies catalog symbols depth).lookup name =
      (slots.bodies catalog symbols depth).lookup name := by
  have hne : (name == input) = false := beq_eq_false_iff_ne.2 h
  cases c with
  | nil => rfl
  | cons => simp [branch, bodies_append, List.lookup_append, bodies, List.lookup_cons, hne]

end Slots

/-! ### Statements -/

theorem Chain.Resembles.append {α β : Type} : ∀ {a b : Chain α} {a' b' : Chain β},
    a.Resembles a' → b.Resembles b' → (a.append b).Resembles (a'.append b')
  | .nil, _, .nil, _, _, h => h
  | .cons .., _, .cons .., _, ⟨hopcode, hslots, hrest⟩, h => ⟨hopcode, hslots, hrest.append h⟩

theorem Chain.Recalls.append {α : Type} {a b : Chain α} {a' b' : Tree} (h : a.Recalls symbols a')
    (h' : b.Recalls symbols b') : (a.append b).Recalls symbols (a'.append b') := by
  refine ⟨h.resembles.append h'.resembles, fun r hr ↦ ?_⟩
  rw [Chain.asked_append, List.mem_append] at hr
  exact hr.elim (h.declares r) (h'.declares r)

variable (catalog target symbols) in
/-- The lines of the chain are read as a chain that resembles it, at the end of whatever script is
open. -/
def Chain.Rereads (c : Chain BlockId) : Prop :=
  ∀ (depth : Nat) (σ : Sheet Unit) (o : OpenScript Unit), σ.current = some o →
    Sheet.Takes catalog target (c.lines catalog symbols depth) σ fun τ ↦
      ∃ d, c.Recalls symbols d ∧ τ = { σ with current := some (o.append d) }

theorem Chain.rereads_nil : (Chain.nil : Chain BlockId).Rereads catalog target symbols := by
  intro depth σ o ho
  rw [Chain.lines]
  refine .nil ⟨.nil, Chain.recalls_nil, ?_⟩
  rw [OpenScript.append, Chain.append_nil, ← ho]

theorem Chain.Rereads.cons {tag : BlockId} {node : Node} {slots : Slots BlockId}
    {rest : Chain BlockId} (h : (Chain.cons tag node slots .nil).Rereads catalog target symbols)
    (hrest : rest.Rereads catalog target symbols) :
    (Chain.cons tag node slots rest).Rereads catalog target symbols := by
  intro depth σ o ho
  have hfirst := h depth σ o ho
  simp only [Chain.lines, List.append_nil] at hfirst ⊢
  refine hfirst.append ?_
  rintro τ ⟨d, hd, rfl⟩
  refine (hrest depth _ (o.append d) rfl).mono ?_
  rintro υ ⟨d', hd', rfl⟩
  refine ⟨d.append d', hd.append hd', ?_⟩
  simp only [OpenScript.append, Chain.append_assoc]

/-- A chain below a nesting block is read into its active branch. -/
theorem Chain.Rereads.inside {c : Chain BlockId} (h : c.Rereads catalog target symbols)
    (depth : Nat) {σ : Sheet Unit} {l : Layer Unit} {ls : List (Layer Unit)}
    (hσ : σ.current = some ⟨l :: ls, .nil⟩) :
    Sheet.Takes catalog target (c.lines catalog symbols depth) σ fun τ ↦
      ∃ d, c.Recalls symbols d ∧ τ = { σ with current := some ⟨l :: ls, d⟩ } :=
  h depth σ _ hσ

/-- A procedure is no variable and no list. -/
theorem declares_procedure (name : String) : symbols.Declares (.procedures, name) :=
  nofun

section

variable {blocks : Dict Block} {b : Block} {tag : BlockId} {node : Node} {s : Setting}
  {front back : Slots BlockId} {c : Command}

theorem call_rereads (hcat : catalog.IsRegular) (hkind : c.kind = .call)
    (hmakes : c.Makes catalog target node front back) :
    (Chain.cons tag node (front.append back) .nil).Rereads catalog target symbols := by
  have hregular := hcat.regular c hmakes.mem
  have hopcode : c.opcode = Opcode.call := by rw [Command.opcode, hregular.call hkind]; rfl
  have hback := hmakes.branches
  rw [Command.branchNames, if_neg (by rw [hkind]; decide)] at hback
  obtain rfl := hcat.eq_essential hmakes.mem (by rw [hkind]; rfl) (d := .procedureCall) (by decide)
    (by rw [hopcode]; rfl)
  obtain rfl := hback.eq_nil
  obtain rfl := Slots.Fill.eq_nil hmakes.inputs
  intro depth σ o ho
  rw [Chain.lines, Node.lines_call hcat hmakes.mem hkind hmakes.fits, Chain.lines]
  refine .single (Listing.indent_ne_empty depth (by simp)) fun n ↦ ?_
  have hline : σ.line catalog target _ = _ :=
    Sheet.line_call hcat (node.calledSignature symbols) n depth σ
  rw [Sheet.ensureScript_of_isSome (by rw [ho]; rfl), Sheet.extend, ho] at hline
  refine ⟨_, hline, _, ?_, rfl⟩
  refine .cons hmakes.fits.opcode (fun r hr ↦ ?_) (Slots.recall_nil _) Chain.recalls_nil
  obtain rfl := List.mem_singleton.1 hr
  exact declares_procedure _

/-- A conditional has two branches, and each is read back if all sub-chains are. -/
theorem exists_branches (hmakes : Command.ifElse.Makes catalog target node front back)
    (hchains : back.EachValue (·.Rereads catalog target symbols)) :
    ∃ first second : Chain BlockId, first.Rereads catalog target symbols ∧
      second.Rereads catalog target symbols ∧
      front.append back = (front.branch "SUBSTACK" first).branch "SUBSTACK2" second := by
  have hbranchNames : Command.ifElse.branchNames = ["SUBSTACK", "SUBSTACK2"] := rfl
  have hback := hmakes.branches
  rw [hbranchNames] at hback
  obtain ⟨first, rest, rfl, hrest⟩ := hback.exists_first (by decide)
  obtain ⟨second, others, rfl, hothers⟩ := hrest.exists_first List.not_mem_nil
  obtain rfl := hothers.eq_nil
  obtain ⟨hfirst, hchains⟩ := Slots.EachValue.first Chain.rereads_nil hchains
  obtain ⟨hsecond, -⟩ := Slots.EachValue.first Chain.rereads_nil hchains
  refine ⟨first, second, hfirst, hsecond, ?_⟩
  rw [Slots.append_nil, ← Slots.append_assoc, Slots.append_branch, Slots.append_branch]

/-- A conditional is written as its header, the first branch, an else, the second branch and an
end. -/
theorem conditional_lines (hcat : catalog.IsRegular)
    (hmakes : Command.ifElse.Makes catalog target node front back)
    (hnot : ∀ name ∈ ["SUBSTACK", "SUBSTACK2"], name ∉ front.names) {first second : Chain BlockId}
    {depth : Nat} :
    (Chain.cons tag node ((front.branch "SUBSTACK" first).branch "SUBSTACK2" second) .nil).lines
        catalog symbols depth =
      [Listing.indent depth (Listing.commandLine Command.ifElse.header.name
        (node.fieldTexts symbols Command.ifElse.fields ++ ((front.branch "SUBSTACK" first).branch
          "SUBSTACK2" second).texts catalog symbols .line Command.ifElse.inputs))] ++
      (first.lines catalog symbols (depth + 1) ++
      ([Listing.indent depth ((catalog.keyword? .otherwise).getD "else")] ++
      (second.lines catalog symbols (depth + 1) ++
      [Listing.indent depth ((catalog.keyword? .finish).getD "end")]))) := by
  have hkind : Command.ifElse.kind = .nesting := rfl
  have hnot' : "SUBSTACK2" ∉ (front.branch "SUBSTACK" first).names := by
    intro h
    rcases Slots.mem_names_branch h with h | h
    · exact hnot _ (by decide) h
    · revert h
      decide
  have hlines : ∀ bodies, Listing.branchLines catalog bodies depth Command.ifElse.stackNames =
      (bodies.lookup "SUBSTACK").getD [] ++
        ([Listing.indent depth ((catalog.keyword? .otherwise).getD "else")] ++
          (bodies.lookup "SUBSTACK2").getD []) := fun _ ↦ rfl
  rw [Chain.lines, Node.lines_eq hcat hmakes.mem rfl hmakes.fits, if_pos hkind, hlines,
    Slots.lookup_branch hnot', Slots.lookup_branch_of_ne (by decide),
    Slots.lookup_branch (hnot _ (by decide)), Chain.lines, List.append_nil, ← List.singleton_append,
    List.append_assoc, List.append_assoc]

variable (symbols) in
/-- The sheet after a header: the block of the command is placed, and it resembles the one that was
written. -/
def Sheet.Heads (c : Command) (front : Slots BlockId) (σ τ : Sheet Unit) : Prop :=
  ∃ n node' slots', τ = σ.place c.header n () node' slots' ∧ node'.opcode = c.header.opcode ∧
    (∀ r ∈ node'.asked, symbols.Declares r) ∧ front.Recall symbols false slots'

section

variable (hcat : catalog.IsRegular) (hsymbols : symbols.AreOwn)
  (hmakes : c.Makes catalog target node front back)
  (hlegible : front.IsLegible catalog symbols node.opcode) (hsaid : b.Says symbols node s)
  (hheld : front.Held ⟨blocks, symbols⟩ tag b.inputs)

include hcat hsymbols hmakes hlegible hsaid hheld

theorem Sheet.takes_header (hkind : c.kind.isHeader = true) (depth : Nat) {σ : Sheet Unit}
    (hσ : if c.kind = .hat then σ.isNested = false else σ.current.isSome = true) :
    Takes catalog target [Listing.indent depth (Listing.commandLine c.header.name
      (node.fieldTexts symbols c.fields ++
        (front.append back).texts catalog symbols .line c.inputs))] σ
          (σ.Heads symbols c front) := by
  obtain ⟨hheader, -⟩ := hcat.header_eq hmakes.mem (CommandKind.isHeader_facts hkind).1
  rw [hmakes.inputs.texts_append]
  have hname := Listing.commandLine_ne_empty (name_ne_empty hcat hheader)
  refine .single (Listing.indent_ne_empty depth (hname _)) fun n ↦ ?_
  obtain ⟨node', slots', hline, hopcode, hdeclares, hrecall⟩ := line_header hcat hsymbols
    hmakes.mem hkind hmakes.available hmakes.fits hmakes.inputs hlegible hsaid hheld n depth hσ
  exact ⟨_, hline, n, node', slots', rfl, hopcode, hdeclares, hrecall⟩

theorem stack_rereads (hkind : c.kind = .stack) :
    (Chain.cons tag node (front.append back) .nil).Rereads catalog target symbols := by
  have hisHeader : c.kind.isHeader = true := by rw [hkind]; rfl
  have hnesting : c.kind ≠ .nesting := by rw [hkind]; decide
  have hhat : c.kind ≠ .hat := by rw [hkind]; decide
  obtain ⟨hblock, hexpr, -⟩ := CommandKind.isHeader_facts hisHeader
  have hback := hmakes.branches
  rw [Command.branchNames, if_neg hnesting] at hback
  intro depth σ o ho
  have htakes := Sheet.takes_header hcat hsymbols hmakes hlegible hsaid hheld hisHeader depth
    (σ := σ) (by rw [if_neg hhat, ho]; rfl)
  rw [Chain.lines, Node.lines_eq hcat hmakes.mem hisHeader hmakes.fits, if_neg hnesting,
    Chain.lines]
  refine htakes.mono ?_
  rintro τ ⟨n, node', slots', rfl, hopcode, hdeclares, hrecall⟩
  rw [hcat.header_of_ne hmakes.mem hblock hnesting] at hopcode ⊢
  refine ⟨.cons () node' slots' .nil, .cons (hmakes.fits.opcode.trans hopcode.symm) hdeclares ?_
    Chain.recalls_nil, ?_⟩
  · rwa [hmakes.fits.opcode, hcat.isComparison_eq_false hmakes.mem hblock hexpr, hback.eq_nil,
      Slots.append_nil]
  · rw [Sheet.place, hkind, ho]
    rfl

/-- A block with a single sub-chain: its header opens it, and the word for the end closes it. -/
theorem loop_rereads (hkind : c.kind = .nesting) (helse : c.opcode ≠ Opcode.ifElse) {name : String}
    (hname : c.stackNames = [name]) (hbranch : (Branches.ofCommand c).active.input = name)
    (hchains : back.EachValue (·.Rereads catalog target symbols)) :
    (Chain.cons tag node (front.append back) .nil).Rereads catalog target symbols := by
  have hisHeader : c.kind.isHeader = true := by rw [hkind]; rfl
  have hhat : c.kind ≠ .hat := by rw [hkind]; decide
  obtain ⟨hblock, hexpr, -⟩ := CommandKind.isHeader_facts hisHeader
  have hbranchNames : c.branchNames = [name] := by rw [Command.branchNames, if_pos hkind, hname]
  have hnot : name ∉ front.names := Listing.notMem_names hcat hmakes (by simp [hbranchNames])
  have hback := hmakes.branches
  rw [hbranchNames] at hback
  obtain ⟨value, rest, rfl, hrest⟩ := hback.exists_first List.not_mem_nil
  obtain rfl := hrest.eq_nil
  obtain ⟨hvalue, -⟩ := Slots.EachValue.first Chain.rereads_nil hchains
  intro depth σ o ho
  have htakes := Sheet.takes_header hcat hsymbols hmakes hlegible hsaid hheld hisHeader depth
    (σ := σ) (by rw [if_neg hhat, ho]; rfl)
  rw [Chain.lines, Node.lines_eq hcat hmakes.mem hisHeader hmakes.fits, if_pos hkind, hname,
    Listing.branchLines, Slots.append_nil, Slots.append_branch, Slots.lookup_branch hnot,
    Chain.lines, List.append_nil, ← List.singleton_append]
  rw [Slots.append_nil, Slots.append_branch] at htakes
  -- the header, the lines of the sub-chain and the word for the end, one after the other
  refine htakes.append ?_
  rintro τ ⟨n, node', slots', rfl, hopcode, hdeclares, hrecall⟩
  have hheader : c.header = c := if_neg helse
  rw [hheader] at hopcode ⊢
  have hplace : σ.place c n () node' slots' =
      { σ with current := some (o.nest () node' slots' c n) } := by
    rw [Sheet.place, hkind, ho]
    rfl
  rw [hplace]
  refine (hvalue.inside (depth + 1) rfl).append ?_
  rintro τ ⟨d, hd, rfl⟩
  refine (Sheet.takes_finish hcat rfl depth).mono ?_
  rintro τ rfl
  refine ⟨.cons () node' (slots'.branch name d) .nil, ?_, ?_⟩
  · refine .cons (hmakes.fits.opcode.trans hopcode.symm) hdeclares ?_ Chain.recalls_nil
    rw [hmakes.fits.opcode, hcat.isComparison_eq_false hmakes.mem hblock hexpr]
    exact hrecall.branch name hd
  · rw [← hbranch]
    rfl

/-- A conditional with two branches: its header opens one with a single branch, to which an else
adds the second. -/
theorem conditional_rereads (hcommand : c = .ifElse)
    (hchains : back.EachValue (·.Rereads catalog target symbols)) :
    (Chain.cons tag node (front.append back) .nil).Rereads catalog target symbols := by
  subst hcommand
  have hcompares : Opcode.isComparison Command.ifElse.opcode = false := by decide
  have hnot : ∀ name ∈ ["SUBSTACK", "SUBSTACK2"], name ∉ front.names := fun _ ↦
    Listing.notMem_names hcat hmakes
  obtain ⟨first, second, hfirst, hsecond, hslots⟩ := exists_branches hmakes hchains
  intro depth σ o ho
  have htakes := Sheet.takes_header hcat hsymbols hmakes hlegible hsaid hheld rfl depth (σ := σ)
    (by rw [if_neg (by decide), ho]; rfl)
  rw [hslots] at htakes ⊢
  rw [conditional_lines hcat hmakes hnot]
  -- the header of the first conditional opens the block, and the else turns it into the second
  refine htakes.append ?_
  rintro τ ⟨n, node', slots', rfl, hopcode, hdeclares, hrecall⟩
  have hplace : σ.place Command.ifElse.header n () node' slots' =
      { σ with current := some (o.nest () node' slots' .ifThen n) } := by
    have hheader : Command.ifElse.header = .ifThen := rfl
    rw [hheader, Sheet.place, ho]
    rfl
  rw [hplace]
  refine (hfirst.inside (depth + 1) rfl).append ?_
  rintro τ ⟨d, hd, rfl⟩
  refine (Sheet.takes_otherwise hcat rfl rfl depth).append ?_
  rintro τ rfl
  refine (hsecond.inside (depth + 1) rfl).append ?_
  rintro τ ⟨d', hd', rfl⟩
  refine (Sheet.takes_finish hcat rfl depth).mono ?_
  rintro τ rfl
  refine ⟨.cons () { node' with opcode := Opcode.ifElse }
    ((slots'.branch "SUBSTACK" d).branch "SUBSTACK2" d') .nil, ?_, rfl⟩
  refine .cons hmakes.fits.opcode hdeclares ?_ Chain.recalls_nil
  rw [hmakes.fits.opcode, hcompares]
  exact (hrecall.branch "SUBSTACK" hd).branch "SUBSTACK2" hd'

/-- A nesting block is read back with its sub-chains. -/
theorem nesting_rereads (hkind : c.kind = .nesting)
    (hchains : back.EachValue (·.Rereads catalog target symbols)) :
    (Chain.cons tag node (front.append back) .nil).Rereads catalog target symbols := by
  obtain rfl | hcommand | ⟨helse, name, hname, hbranches⟩ := hcat.nesting_cases hmakes.mem hkind
  · exact loop_rereads hcat hsymbols hmakes hlegible hsaid hheld rfl (by decide) rfl rfl hchains
  · exact conditional_rereads hcat hsymbols hmakes hlegible hsaid hheld hcommand hchains
  · exact loop_rereads hcat hsymbols hmakes hlegible hsaid hheld hkind helse hname
      (by rw [hbranches]; rfl) hchains

end

end

/-- **The lines of a body are read as a body that resembles it.** -/
theorem Chain.IsBody.rereads (hcat : catalog.IsRegular) (hsymbols : symbols.AreOwn)
    {blocks : Dict Block} {c : Chain BlockId} (hbody : c.IsBody catalog target) :
    ∀ s : Setting, c.Held ⟨blocks, symbols⟩ s → c.IsLegible catalog symbols →
      c.Rereads catalog target symbols := by
  refine hbody.induction (motive := fun c ↦ ∀ s : Setting, c.Held ⟨blocks, symbols⟩ s →
    c.IsLegible catalog symbols → c.Rereads catalog target symbols)
    (fun _ _ _ ↦ Chain.rereads_nil) ?_
  intro tag node front back rest c hk hmakes hchains _ ih s hheld hlegible
  obtain ⟨b, -, hsaid, -, -, hslots, hrest⟩ := hheld
  obtain ⟨hslotsLegible, hrestLegible⟩ := hlegible
  obtain ⟨hfront, hback⟩ := Slots.held_append.1 hslots
  obtain ⟨hfrontLegible, hbackLegible⟩ := (Slots.isLegible_append front back).1 hslotsLegible
  refine Chain.Rereads.cons ?_ (ih _ hrest hrestLegible)
  cases hkind : c.kind <;> rw [hkind] at hk <;> try cases hk
  case stack => exact stack_rereads hcat hsymbols hmakes hfrontLegible hsaid hfront hkind
  case call => exact call_rereads hcat hkind hmakes
  case nesting =>
    refine nesting_rereads hcat hsymbols hmakes hfrontLegible hsaid hfront hkind ?_
    refine ((Listing.eachValue_held hback (Nat.le_refl _) hchains).and hbackLegible.each).mono ?_
    rintro v ⟨⟨hv, ⟨sv, hheld⟩, -⟩, hlegible⟩
    exact hv sv hheld hlegible

/-! ### Scripts -/

namespace Sheet

variable {blocks : Dict Block} {s : Setting}

/-- A script goes on after its head. -/
theorem Takes.body {lines : List String} {σ : Sheet Unit} {rest : Chain BlockId}
    (hrest : rest.Rereads catalog target symbols) {tag : BlockId} {node : Node}
    {slots : Slots BlockId}
    (h : Takes catalog target lines σ fun τ ↦
      ∃ head, (Chain.cons tag node slots .nil).Recalls symbols head ∧ τ = σ.start head) :
    Takes catalog target (lines ++ rest.lines catalog symbols 0) σ fun τ ↦
      ∃ d, (Chain.cons tag node slots rest).Recalls symbols d ∧ τ = σ.start d := by
  refine h.append ?_
  rintro τ ⟨head, hhead, rfl⟩
  refine (hrest 0 (σ.start head) { chain := head } rfl).mono ?_
  rintro τ ⟨d, hd, rfl⟩
  exact ⟨head.append d, hhead.append hd, rfl⟩

/-- **The lines of a script are read as a script that resembles it**, where no nesting block is
open. -/
theorem takes_script (hcat : catalog.IsRegular) (hsymbols : symbols.AreOwn) {c : Chain BlockId}
    (hscript : c.IsScript catalog target) (hheld : c.Held ⟨blocks, symbols⟩ s)
    (hlegible : c.IsLegible catalog symbols) {σ : Sheet Unit} (hσ : σ.isNested = false) :
    Takes catalog target (c.lines catalog symbols 0) σ fun τ ↦
      ∃ d, c.Recalls symbols d ∧ τ = σ.start d := by
  cases c with
  | nil => exact hscript.elim
  | cons tag node slots rest =>
    obtain ⟨hhead, hbody⟩ := hscript
    obtain ⟨b, -, hsaid, -, -, hslots, hrest⟩ := hheld
    obtain ⟨hslotsLegible, hrestLegible⟩ := hlegible
    rw [Chain.lines]
    refine .body (hbody.rereads hcat hsymbols _ hrest hrestLegible) ?_
    rcases hhead with ⟨c, hmem, hkind, havailable, hnode, hfill⟩ | ⟨rfl, tag', name, -, rfl⟩
    · have hisHeader : c.kind.isHeader = true := by rw [hkind]; rfl
      have hnesting : c.kind ≠ .nesting := by rw [hkind]; decide
      obtain ⟨hblock, hexpr, -⟩ := CommandKind.isHeader_facts hisHeader
      have hmakes : c.Makes catalog target node slots .nil :=
        ⟨hmem, havailable, hnode, hfill, trivial⟩
      have htakes := takes_header hcat hsymbols hmakes hslotsLegible hsaid hslots hisHeader 0
        (σ := σ) (by rw [if_pos hkind]; exact hσ)
      rw [Slots.append_nil] at htakes
      rw [Node.lines_eq hcat hmem hisHeader hnode, if_neg hnesting]
      refine htakes.mono ?_
      rintro τ ⟨n, node', slots', rfl, hopcode, hdeclares, hrecall⟩
      rw [hcat.header_of_ne hmem hblock hnesting] at hopcode ⊢
      refine ⟨.cons () node' slots' .nil, .cons (hnode.opcode.trans hopcode.symm) hdeclares ?_
        Chain.recalls_nil, by rw [place, hkind]⟩
      rwa [hnode.opcode, hcat.isComparison_eq_false hmem hblock hexpr]
    · refine .single (Listing.indent_ne_empty 0 (by simp)) fun n ↦ ?_
      refine ⟨_, line_define hcat _ n 0 hσ, definition () () _, ?_, rfl⟩
      refine .cons rfl (fun _ h ↦ absurd h List.not_mem_nil) ?_ Chain.recalls_nil
      refine .cons (fun h ↦ by cases h) Chain.recalls_nil ?_ (Slots.recall_nil _)
      refine .cons rfl (fun r hr ↦ ?_) (Slots.recall_nil _) Chain.recalls_nil
      obtain rfl := List.mem_singleton.1 hr
      exact declares_procedure _

/-- The lines of scripts are read as scripts that resemble them, in their order. -/
theorem takes_scripts (hcat : catalog.IsRegular) (hsymbols : symbols.AreOwn) :
    ∀ {cs : List (Chain BlockId)}, (∀ c ∈ cs, c.IsScript catalog target ∧
      (∃ s, c.Held ⟨blocks, symbols⟩ s) ∧ c.IsLegible catalog symbols) →
      ∀ {σ : Sheet Unit}, σ.isNested = false →
        Takes catalog target (cs.map (·.lines catalog symbols 0)).flatten σ fun τ ↦
          τ.isNested = false ∧ τ.declared = σ.declared ∧
            ∃ ds, List.Forall₂ (Chain.Recalls symbols) cs ds ∧ τ.scripts = σ.scripts ++ ds
  | [], _, σ, hσ => .nil ⟨hσ, rfl, [], .nil, by simp⟩
  | c :: cs, h, σ, hσ => by
    obtain ⟨hscript, ⟨s, hheld⟩, hlegible⟩ := h c List.mem_cons_self
    refine (takes_script hcat hsymbols hscript hheld hlegible hσ).append ?_
    rintro τ ⟨d, hd, rfl⟩
    refine (takes_scripts hcat hsymbols (fun c' hc' ↦ h c' (List.mem_cons_of_mem _ hc'))
      (σ := σ.start d) rfl).mono ?_
    rintro τ ⟨hnested, hdeclared, ds, hds, hscripts⟩
    refine ⟨hnested, hdeclared, d :: ds, .cons hd hds, ?_⟩
    rw [hscripts]
    simp [Sheet.scripts, Sheet.start, OpenScript.whole]

end Sheet

end BlockScript
