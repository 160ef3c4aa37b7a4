import Mathlib.Data.List.FinRange
import BlockScript.Proofs.Binding
import BlockScript.Proofs.Parallel
import BlockScript.Proofs.Walking

/-!
# Sprites that do not depend on each other

The sprites of a program are made one after the other, but all that a sprite gets from the ones
before it is where the counter of identifiers stands. Work on two drafts that are the same up to
their counters ends for both in the same way: with the same fault, or with drafts that are again the
same up to their counters. For this is a bond that every operation keeps (`Bond.parallel_isKept`),
and so do lines (`Script.draft_parallel`).

So sprites can be put in any order (`Compile.ofOutline_perm`): the program can be made or cannot,
and if it can, each sprite is the same target under other identifiers, the stage is the same up to
the order of its broadcasts, and nothing else changes but the order of the warnings.
-/

namespace BlockScript

/-! ### Lines -/

namespace Bond

/-- The drafts of the two runs are the same up to their counters. -/
def parallel (m n : Nat) (outer : List SymbolTables) : Bond where
  drafts _ d e := d.Parallel m n outer e
  names := .shift m n outer
  own _ := True
  inline := False
  tell line remarks h := h.tell line remarks
  extension extension? h := h.useExtension extension?

/-- Every operation keeps drafts the same up to their counters. -/
theorem parallel_isKept (m n : Nat) (outer : List SymbolTables) (catalog : Catalog)
    (target : TargetKind) : (parallel m n outer).IsKeptByLines catalog target where
  inline := False.elim
  create _ hrole h :=
    have hcreated := Draft.Parallel.create h _ hrole
    ⟨⟨trivial, hcreated.1⟩, hcreated.2⟩
  setText _ _ hid _ _ h := Draft.Parallel.setText hid.2 h _ _ _ _
  setInput name _ _ hid hslot h := Draft.Parallel.setInput hid.2 h name hslot.1
  setParent hid hparent h := Draft.Parallel.setParent hid.2 h hparent
  script h := Draft.Parallel.script h
  frames h := Draft.Parallel.frames h
  move hscript hframes h := { h with script := hscript, frames := hframes }
  append hid h := Draft.Parallel.append h hid
  branch hid h := Draft.Parallel.update h hid fun _ _ hb ↦ { hb with opcode := rfl }
  intern kind _ _ _ _ h :=
    have hinterned := Draft.Parallel.intern h kind _ _
    ⟨⟨hinterned.1.name, False.elim⟩, hinterned.2⟩
  setProcedure hid _ h := Draft.Parallel.setProcedure hid h _
  countCommand h := Draft.Parallel.countCommand h

end Bond

/-! ### Targets -/

section

variable {m n : Nat} {outer : List SymbolTables} {d e : Draft}

/-- Two builds of the same target start parallel, wherever their identifiers start. -/
theorem Draft.parallel_start (m n : Nat) (outer : List SymbolTables) :
    Draft.Parallel m n outer { ids := ⟨m⟩, symbols := ⟨{}, outer⟩ }
      { ids := ⟨n⟩, symbols := ⟨{}, outer⟩ } where
  blocks := Dict.matches_empty
  warnings := rfl
  ids := ⟨0, rfl, rfl⟩
  own kind := by cases kind <;> exact .nil
  inherited := ⟨rfl, rfl⟩
  extensions := rfl
  nextY := rfl
  script := .none
  frames := .nil
  commandCount := rfl

/-- What is made of lines is the same target under other identifiers wherever the counter stands, or
nothing at all. -/
theorem Script.draft_parallel (catalog : Catalog) (kind : TargetKind) (sources : List SourceLine)
    (m n : Nat) (outer : List SymbolTables) :
    (∃ d e, draft catalog kind sources { ids := ⟨m⟩, symbols := ⟨{}, outer⟩ } = .ok d ∧
      draft catalog kind sources { ids := ⟨n⟩, symbols := ⟨{}, outer⟩ } = .ok e ∧
      d.Parallel m n outer e) ∨
    ∃ x, draft catalog kind sources { ids := ⟨m⟩, symbols := ⟨{}, outer⟩ } = .error x ∧
      draft catalog kind sources { ids := ⟨n⟩, symbols := ⟨{}, outer⟩ } = .error x := by
  have hdrafts : (Bond.parallel m n outer).drafts [] { ids := ⟨m⟩, symbols := ⟨{}, outer⟩ }
      { ids := ⟨n⟩, symbols := ⟨{}, outer⟩ } := Draft.parallel_start m n outer
  have hends := Bond.lines_holds (Bond.parallel_isKept m n outer catalog kind)
    (fun _ _ ↦ False.elim : ∀ s ∈ sources, (Bond.parallel m n outer).Reads s.text) hdrafts
  rw [draft_eq, draft_eq]
  generalize run (Build.lines catalog kind sources) { ids := ⟨m⟩, symbols := ⟨{}, outer⟩ } = x
    at hends ⊢
  generalize run (Build.lines catalog kind sources) { ids := ⟨n⟩, symbols := ⟨{}, outer⟩ } = y
    at hends ⊢
  cases hends with
  | @done _ _ d e _ h => exact .inl ⟨d, e, rfl, rfl, h⟩
  | @stopped error => exact .inr ⟨error, rfl, rfl⟩

/-- The same finished target under other identifiers, with the same warnings and counts. -/
structure TargetBuild.Renamed (r : Renaming) (b c : TargetBuild) : Prop where
  target : b.target.Renamed r c.target
  warnings : b.warnings = c.warnings
  extensions : b.extensions = c.extensions
  commandCount : b.commandCount = c.commandCount
  blockCount : b.blockCount = c.blockCount

/-- Parallel drafts are finished as renamed targets. -/
theorem Draft.Parallel.finish (h : d.Parallel m n outer e) (kind : TargetKind) (name : String) :
    (d.finish kind name).Renamed (Renaming.shift m n outer) (e.finish kind name) where
  target := {
    kind := rfl
    name := rfl
    blocks := h.blocks
    vars := by
      show List.Forall₂ _ (d.symbols.own.vars.map _) (e.symbols.own.vars.map _)
      rw [List.forall₂_map_left_iff, List.forall₂_map_right_iff]
      exact (h.own .vars).imp fun _ _ hentry ↦ ⟨hentry.id, hentry.name, hentry.value⟩
    lists := by
      show List.Forall₂ _ (d.symbols.own.lists.map _) (e.symbols.own.lists.map _)
      rw [List.forall₂_map_left_iff, List.forall₂_map_right_iff]
      exact (h.own .lists).imp fun _ _ hentry ↦ ⟨hentry.id, hentry.name⟩
    broadcasts := by
      show d.symbols.own.broadcasts.map _ = e.symbols.own.broadcasts.map _
      refine List.forall₂_eq_eq_eq.symm ▸ ?_
      rw [List.forall₂_map_left_iff, List.forall₂_map_right_iff]
      refine (h.own .broadcasts).imp fun x y hentry ↦ ?_
      rw [hentry.id.1, hentry.id.2, hentry.name]
    costume := rfl }
  warnings := h.warnings
  extensions := h.extensions
  commandCount := h.commandCount
  blockCount := h.blocks.size_eq biUnique_shift

end

/-! ### Programs -/

/-- A total does not depend on the order. -/
theorem total_perm {l l' : List Nat} (h : l.Perm l') : total l = total l' :=
  h.foldr_eq 0

/-- A list related to a listing is a listing itself. -/
theorem exists_ofFn_of_forall₂ {α β : Type} {n : Nat} {rel : α → β → Prop} {f : Fin n → α}
    {l : List β} (h : List.Forall₂ rel (List.ofFn f) l) :
    ∃ g : Fin n → β, l = List.ofFn g ∧ ∀ i, rel (f i) (g i) := by
  have hlength : n = l.length := (List.length_ofFn).symm.trans h.length_eq
  subst hlength
  refine ⟨l.get, (List.ofFn_get l).symm, fun i ↦ ?_⟩
  have hget := h.get (by simp) i.isLt
  simpa using hget

/-- A symbol that sprites see. -/
def Target.Shares (t : Target) (s : Symbol) : Prop :=
  (∃ v ∈ t.vars, s = ⟨v.id, v.name⟩) ∨ s ∈ t.lists

/-- What two programs have in common that are made from the same stage and the same sprites, when
the sprite at place `σ i` of the one stands at place `i` of the other. -/
structure Compiled.SameUpToOrder {n : Nat} (σ : Equiv.Perm (Fin n)) (c c' : Compiled) : Prop where
  /-- Each sprite is the same under other identifiers. -/
  sprites : ∃ t t' : Fin n → Target,
    c.program.sprites = List.ofFn t ∧ c'.program.sprites = List.ofFn t' ∧
    ∀ i, ∃ twin, Relator.BiUnique twin ∧ (t (σ i)).Renamed ⟨twin, c.program.stage.Shares⟩ (t' i)
  /-- The stage is the same but for its broadcasts. -/
  stage : { c.program.stage with broadcasts := [] } = { c'.program.stage with broadcasts := [] }
  /-- The stage declares the same broadcasts. -/
  broadcasts : ∀ id, id ∈ c.program.stage.broadcasts.map Symbol.id ↔
    id ∈ c'.program.stage.broadcasts.map Symbol.id
  /-- The same extensions are in use. -/
  extensions : c.program.extensions = c'.program.extensions
  /-- The same number of commands made a block. -/
  commandCount : c.commandCount = c'.commandCount
  /-- There are as many blocks. -/
  blockCount : c.blockCount = c'.blockCount
  /-- The stage has as many scripts. -/
  stageScripts : c.stageScripts = c'.stageScripts
  /-- The warnings of the stage are followed by those of the sprites in their order. -/
  warnings : ∃ (own : List Warning) (each : Fin n → List Warning),
    c.warnings = own ++ (List.ofFn each).flatten ∧
    c'.warnings = own ++ (List.ofFn (each ∘ σ)).flatten ∧
    (∀ w ∈ own, w.scope = some "Stage") ∧
    ∀ i, ∀ w ∈ each i, w.scope = c.program.sprites[i]?.map Target.name

namespace Compile

variable {catalog : Catalog} {stage : Symbols}

/-- What is made of the lines of a sprite, wherever the counter stands. -/
def Makes (catalog : Catalog) (stage : Symbols) (s : SpriteSection)
    (b : SpriteSection × TargetBuild) : Prop :=
  b.1 = s ∧ ∃ first d,
    Script.draft catalog .sprite s.lines { ids := ⟨first⟩, symbols := stage.within } = .ok d ∧
    b.2 = d.finish .sprite s.name

/-- Where the counter stands makes no difference for what is made of a sprite. -/
theorem Makes.renamed {s : SpriteSection} {b c : SpriteSection × TargetBuild}
    (hb : Makes catalog stage s b) (hc : Makes catalog stage s c) :
    ∃ m n, b.2.Renamed (Renaming.shift m n stage.within.inherited) c.2 := by
  obtain ⟨-, m, d, hd, hb⟩ := hb
  obtain ⟨-, n, e, he, hc⟩ := hc
  refine ⟨m, n, ?_⟩
  rcases Script.draft_parallel catalog .sprite s.lines m n stage.within.inherited with
    ⟨d', e', hd', he', hparallel⟩ | ⟨x, hx, -⟩
  · obtain rfl := Except.ok.inj (hd.symm.trans hd')
    obtain rfl := Except.ok.inj (he.symm.trans he')
    rw [hb, hc]
    exact hparallel.finish .sprite s.name
  · exact absurd (hd.symm.trans hx) (by simp)

/-- Sprites that were built are each made of their own section. -/
theorem makes_of_sprites {ids : IdSource} {sections : List SpriteSection}
    {built : List (SpriteSection × TargetBuild)}
    (h : sprites catalog stage ids sections = .ok built) :
    List.Forall₂ (Makes catalog stage) sections built := by
  induction sections generalizing ids built with
  | nil =>
    obtain rfl := Except.ok.inj h
    exact .nil
  | cons s rest ih =>
    obtain ⟨d, others, hdraft, hothers, rfl⟩ := sprites_cons_eq_ok h
    exact .cons ⟨rfl, ids.drawn, d, hdraft, rfl⟩ (ih hothers)

/-- Sprites that can be made one by one can be made one after the other. -/
theorem exists_sprites {sections : List SpriteSection} (ids : IdSource)
    (h : ∀ s ∈ sections, ∃ b, Makes catalog stage s b) :
    ∃ built, sprites catalog stage ids sections = .ok built := by
  induction sections generalizing ids with
  | nil => exact ⟨[], rfl⟩
  | cons s rest ih =>
    obtain ⟨hs, hrest⟩ := List.forall_mem_cons.1 h
    obtain ⟨-, -, first, d, hd, -⟩ := hs
    rcases Script.draft_parallel catalog .sprite s.lines first ids.drawn stage.within.inherited with
      ⟨-, e, -, he, -⟩ | ⟨x, hx, -⟩
    · obtain ⟨others, hothers⟩ := ih e.ids hrest
      exact ⟨_, Reading.bind_eq_ok.2 ⟨e, he, Reading.bind_eq_ok.2 ⟨others, hothers, rfl⟩⟩⟩
    · exact absurd (hd.symm.trans hx) (by simp)

/-- A sprite has the name of its section. -/
theorem Makes.name {s : SpriteSection} {b : SpriteSection × TargetBuild}
    (h : Makes catalog stage s b) : b.2.target.name = b.1.name := by
  obtain ⟨hsection, -, d, -, hbuilt⟩ := h
  rw [hbuilt, hsection]
  rfl

/-- Sections that can each be built can be built together, with the same results. -/
theorem sprites_ofFn_eq_ok {n : Nat} {sections : Fin n → SpriteSection} (ids : IdSource)
    (h : ∀ i, ∃ b, Makes catalog stage (sections i) b) :
    ∃ f, sprites catalog stage ids (List.ofFn sections) = .ok (List.ofFn f) ∧
      ∀ i, Makes catalog stage (sections i) (f i) := by
  obtain ⟨built, hbuilt⟩ := exists_sprites ids (List.forall_mem_ofFn_iff.2 h)
  obtain ⟨f, rfl, hf⟩ := exists_ofFn_of_forall₂ (makes_of_sprites hbuilt)
  exact ⟨f, hbuilt, hf⟩

/-- A section that cannot be built stops the program, in whatever place it stands. -/
theorem sprites_ofFn_eq_error {n : Nat} {sections : Fin n → SpriteSection} (ids : IdSource)
    (i : Fin n) (h : ¬∃ b, Makes catalog stage (sections i) b) :
    ∃ e, sprites catalog stage ids (List.ofFn sections) = .error e := by
  cases hsprites : sprites catalog stage ids (List.ofFn sections) with
  | error e => exact ⟨e, rfl⟩
  | ok built =>
    obtain ⟨f, -, hf⟩ := exists_ofFn_of_forall₂ (makes_of_sprites hsprites)
    exact absurd ⟨f i, hf i⟩ h

/-- The broadcasts of the stage are its own and those of all sprites. -/
theorem mem_ids_foldl_mergeBroadcasts_iff {builds : List TargetBuild} {known : List Symbol}
    {id : String} :
    id ∈ (builds.foldl (fun all b ↦ mergeBroadcasts all b.target.broadcasts) known).map Symbol.id ↔
      id ∈ known.map Symbol.id ∨ ∃ b ∈ builds, id ∈ b.target.broadcasts.map Symbol.id := by
  refine ⟨fun h ↦ ?_, mem_ids_foldl_mergeBroadcasts⟩
  obtain ⟨s, hs, rfl⟩ := List.mem_map.1 h
  rcases mem_of_mem_foldl_mergeBroadcasts hs with hs | ⟨b, hb, hs⟩
  · exact .inl (List.mem_map_of_mem hs)
  · exact .inr ⟨b, hb, List.mem_map_of_mem hs⟩

/-- Names inserted one by one are all there in the end. -/
theorem mem_keys_insertAll {names : List String} {all : Dict Unit} {key : String} :
    key ∈ (names.foldl (fun all name ↦ all.insert name ()) all).keys ↔
      key ∈ all.keys ∨ key ∈ names := by
  induction names generalizing all with
  | nil => simp
  | cons name names ih =>
    rw [List.foldl_cons, ih, Dict.mem_keys_iff, Dict.mem_keys_iff, List.mem_cons, ← or_assoc]
    refine or_congr_left ?_
    simp only [Dict.find?_insert]
    by_cases heq : key = name
    · simp [heq]
    · simp [heq]

/-- The extensions in use are those of the stage and those of all sprites. -/
theorem mem_keys_foldl_extensions {builds : List TargetBuild} {all : Dict Unit} {key : String} :
    key ∈ (builds.foldl (fun all b ↦
        b.extensions.keys.foldl (fun all name ↦ all.insert name ()) all) all).keys ↔
      key ∈ all.keys ∨ ∃ b ∈ builds, key ∈ b.extensions.keys := by
  induction builds generalizing all with
  | nil => simp
  | cons build builds ih => rw [List.foldl_cons, ih, mem_keys_insertAll]; simp [or_assoc]

/-- The program that is made of a stage and its sprites. -/
def assembled (d : Draft) (built : List (SpriteSection × TargetBuild)) : Compiled :=
  let stage := d.finish .stage "Stage"
  let builds := built.map (·.2)
  { program := {
      stage := { stage.target with
        broadcasts := builds.foldl (fun all b ↦ mergeBroadcasts all b.target.broadcasts)
          stage.target.broadcasts }
      sprites := built.map spriteTarget
      extensions := (builds.foldl (fun all b ↦
        b.extensions.keys.foldl (fun all name ↦ all.insert name ()) all) stage.extensions).keys }
    warnings := stage.warnings.map (·.within "Stage") ++
      built.flatMap fun b ↦ b.2.warnings.map (·.within b.1.name)
    commandCount := stage.commandCount + total (builds.map TargetBuild.commandCount)
    blockCount := stage.blockCount + total (builds.map TargetBuild.blockCount)
    stageScripts := (stage.target.blocks.values.filter Block.isTopLevel).length }

/-- A program is the stage, then the sprites after it, put together. -/
theorem ofOutline_eq (catalog : Catalog) (outline : Outline) :
    ofOutline catalog outline = do
      let d ← Script.draft catalog .stage outline.stage {}
      let built ← sprites catalog d.symbols d.ids outline.sprites
      return assembled d built := rfl

section

variable {n : Nat} {f g : Fin n → SpriteSection × TargetBuild} (σ : Equiv.Perm (Fin n))

/-- A count over the sprites does not depend on their order. -/
theorem total_builds_perm {count : TargetBuild → Nat} (h : ∀ i, count (f (σ i)).2 = count (g i).2) :
    total (((List.ofFn f).map (·.2)).map count) = total (((List.ofFn g).map (·.2)).map count) := by
  have hperm := (Equiv.Perm.ofFn_comp_perm σ f).symm
  rw [total_perm ((hperm.map (·.2)).map count)]
  simp only [List.map_ofFn]
  exact congrArg (fun k ↦ total (List.ofFn k)) (funext h)

/-- What one of the sprites has does not depend on their order. -/
theorem exists_builds_perm {p : TargetBuild → Prop} (h : ∀ i, p (f (σ i)).2 ↔ p (g i).2) :
    (∃ b ∈ (List.ofFn f).map (·.2), p b) ↔ ∃ b ∈ (List.ofFn g).map (·.2), p b := by
  simp only [List.map_ofFn, List.mem_ofFn, Function.comp_apply, exists_exists_eq_and]
  exact σ.surjective.exists.trans (exists_congr h)

/-- The symbols of the stage that a sprite finds in the tables around it. -/
theorem shared_shift_eq {d : Draft} (hd : d.symbols.inherited = []) (m n : Nat)
    (built : List (SpriteSection × TargetBuild)) :
    (Renaming.shift m n d.symbols.within.inherited).shared =
      (assembled d built).program.stage.Shares := by
  funext s
  refine propext ⟨?_, ?_⟩
  · rintro ⟨kind, hshared, table, htable, entry, hentry, rfl⟩
    rw [Symbols.within, hd] at htable
    obtain rfl := List.mem_singleton.1 htable
    cases kind with
    | vars => exact .inl ⟨_, List.mem_map_of_mem hentry, rfl⟩
    | lists => exact .inr (List.mem_map_of_mem hentry)
    | broadcasts => cases hshared
    | procedures => cases hshared
  · rintro (⟨v, hv, rfl⟩ | hs)
    · obtain ⟨entry, hentry, rfl⟩ := List.mem_map.1 hv
      exact ⟨.vars, rfl, _, List.mem_cons_self, entry, hentry, rfl⟩
    · obtain ⟨entry, hentry, rfl⟩ := List.mem_map.1 hs
      exact ⟨.lists, rfl, _, List.mem_cons_self, entry, hentry, rfl⟩

/-- Programs of the same sprites in another order are the same up to that order. -/
theorem sameUpToOrder_assembled {d : Draft} (hd : d.symbols.inherited = [])
    (hsection : ∀ i, (f (σ i)).1 = (g i).1)
    (hname : ∀ i, (f i).2.target.name = (f i).1.name)
    (hbuilt : ∀ i, ∃ m n,
      (f (σ i)).2.Renamed (Renaming.shift m n d.symbols.within.inherited) (g i).2) :
    (assembled d (List.ofFn f)).SameUpToOrder σ (assembled d (List.ofFn g)) where
  sprites := by
    refine ⟨spriteTarget ∘ f, spriteTarget ∘ g, List.map_ofFn, List.map_ofFn, fun i ↦ ?_⟩
    obtain ⟨m, n, hrenamed⟩ := hbuilt i
    refine ⟨(Renaming.shift m n d.symbols.within.inherited).twin, biUnique_shift, ?_⟩
    rw [← shared_shift_eq hd m n]
    exact { hrenamed.target with
      broadcasts := rfl
      costume := congrArg SpriteSection.costume (hsection i) }
  stage := rfl
  broadcasts id := by
    simp only [assembled, mem_ids_foldl_mergeBroadcasts_iff]
    refine or_congr_right (exists_builds_perm σ fun i ↦ ?_)
    obtain ⟨m, n, hrenamed⟩ := hbuilt i
    rw [hrenamed.target.broadcasts]
  extensions := by
    refine Dict.eq_of_pairwise_of_mem_iff (Dict.keys_pairwise _) (Dict.keys_pairwise _) fun key ↦ ?_
    simp only [assembled, mem_keys_foldl_extensions]
    refine or_congr_right (exists_builds_perm σ fun i ↦ ?_)
    obtain ⟨m, n, hrenamed⟩ := hbuilt i
    rw [hrenamed.extensions]
  commandCount := congrArg (d.commandCount + ·) (total_builds_perm σ fun i ↦ by
    obtain ⟨m, n, hrenamed⟩ := hbuilt i
    exact hrenamed.commandCount)
  blockCount := congrArg (d.blocks.size + ·) (total_builds_perm σ fun i ↦ by
    obtain ⟨m, n, hrenamed⟩ := hbuilt i
    exact hrenamed.blockCount)
  stageScripts := rfl
  warnings := by
    -- the remarks on the stage come first, and those on a sprite move with it
    refine ⟨d.warnings.map (·.within "Stage"),
      fun i ↦ (f i).2.warnings.map (·.within (f i).1.name), ?_, ?_, ?_, ?_⟩
    · show _ ++ (List.ofFn f).flatMap _ = _
      rw [List.flatMap_def, List.map_ofFn]
      rfl
    · show _ ++ (List.ofFn g).flatMap _ = _
      rw [List.flatMap_def, List.map_ofFn]
      refine congrArg (fun each ↦ _ ++ (List.ofFn each).flatten) (funext fun i ↦ ?_)
      obtain ⟨m, n, hrenamed⟩ := hbuilt i
      simp only [Function.comp_apply, hrenamed.warnings, hsection i]
    · intro w hw
      obtain ⟨_, -, rfl⟩ := List.mem_map.1 hw
      rfl
    · intro i w hw
      obtain ⟨_, -, rfl⟩ := List.mem_map.1 hw
      simp [assembled, spriteTarget, Warning.within, hname]

end

/-- **Sprites do not depend on each other.** With its sprites in another order, a program can be
made or it cannot; if it can, each sprite is the same under other identifiers, the stage is the same
up to the order of its broadcasts, and each sprite has the same warnings. -/
theorem ofOutline_perm (catalog : Catalog) (stage : List SourceLine) {n : Nat}
    (sections : Fin n → SpriteSection) (σ : Equiv.Perm (Fin n)) :
    (∃ c c', ofOutline catalog ⟨stage, List.ofFn sections⟩ = .ok c ∧
      ofOutline catalog ⟨stage, List.ofFn (sections ∘ σ)⟩ = .ok c' ∧ c.SameUpToOrder σ c') ∨
    ∃ e e', ofOutline catalog ⟨stage, List.ofFn sections⟩ = .error e ∧
      ofOutline catalog ⟨stage, List.ofFn (sections ∘ σ)⟩ = .error e' := by
  rw [ofOutline_eq, ofOutline_eq]
  cases hdraft : Script.draft catalog .stage stage {} with
  | error e => exact .inr ⟨e, e, rfl, rfl⟩
  | ok d =>
    have hd : d.symbols.inherited = [] := (Script.orderly_of_draft hdraft).inherited
    by_cases hmakes : ∀ i, ∃ b, Makes catalog d.symbols (sections i) b
    · -- both orders go through, and the same sprites are made at other points of the counter
      obtain ⟨f, hf, hmakesf⟩ := sprites_ofFn_eq_ok d.ids hmakes
      obtain ⟨g, hg, hmakesg⟩ := sprites_ofFn_eq_ok d.ids fun i ↦ hmakes (σ i)
      refine .inl ⟨_, _, Reading.bind_eq_ok.2 ⟨d, rfl, Reading.bind_eq_ok.2 ⟨_, hf, rfl⟩⟩,
        Reading.bind_eq_ok.2 ⟨d, rfl, Reading.bind_eq_ok.2 ⟨_, hg, rfl⟩⟩, ?_⟩
      exact sameUpToOrder_assembled σ hd (fun i ↦ (hmakesf (σ i)).1.trans (hmakesg i).1.symm)
        (fun i ↦ (hmakesf i).name) fun i ↦ (hmakesf (σ i)).renamed (hmakesg i)
    · -- a section that cannot be built stops both orders, if at different places
      obtain ⟨i, hi⟩ := not_forall.1 hmakes
      have hi' : ¬∃ b, Makes catalog d.symbols ((sections ∘ σ) (σ.symm i)) b := by
        rwa [Function.comp_apply, σ.apply_symm_apply]
      obtain ⟨e, he⟩ := sprites_ofFn_eq_error d.ids i hi
      obtain ⟨e', he'⟩ := sprites_ofFn_eq_error d.ids (σ.symm i) hi'
      exact .inr ⟨e, e', by simp [bind, Except.bind, he], by simp [bind, Except.bind, he']⟩

end Compile

end BlockScript
