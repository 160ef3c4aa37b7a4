import Mathlib.Data.List.Basic

/-!
# The grammar of scripts

What the lines of a target have to look like for nesting blocks and scripts to be closed where they
should be. Only the kind of each line matters here (`Word`). A *statement* is a plain line, or a
header with a body and the line that closes it; the body of a conditional may be split once. A
*program* is a row of statements, starts of scripts and declarations, in which a line that closes
nothing else closes the script.

`Nesting.step` reads a program word by word: it keeps the open nesting blocks on a stack and stops
at a word that cannot follow. What the grammar derives is read to its end (`Nesting.run_program`),
so what stops the reader is no beginning of a program (`Nesting.run_isSome_of_isBeginning`).
-/

namespace BlockScript

/-- What a line means to the lines around it. -/
inductive Word where
  /-- It declares a symbol. -/
  | declare
  /-- It starts a script. -/
  | start
  /-- It is a statement on its own. -/
  | plain
  /-- It is the header of a nesting block, which is a conditional or not. -/
  | nest (conditional : Bool)
  /-- It splits the body of a conditional. -/
  | otherwise
  /-- It closes a nesting block or a script. -/
  | finish
deriving DecidableEq, Repr

namespace Grammar

/-! ### What is a program -/

mutual

/-- A statement with all that is nested in it. -/
inductive IsStatement : List Word → Prop where
  /-- A line on its own. -/
  | plain : IsStatement [.plain]
  /-- A header with its body. -/
  | nest (conditional : Bool) {body : List Word} (hbody : IsBody body) :
    IsStatement (.nest conditional :: (body ++ [.finish]))
  /-- A conditional whose body is split in two. -/
  | choose {body second : List Word} (hbody : IsBody body) (hsecond : IsBody second) :
    IsStatement (.nest true :: (body ++ .otherwise :: (second ++ [.finish])))

/-- What can be nested: declarations and statements. -/
inductive IsBody : List Word → Prop where
  /-- Nothing. -/
  | nil : IsBody []
  /-- One more declaration. -/
  | declare {body : List Word} (hbody : IsBody body) : IsBody (body ++ [.declare])
  /-- One more statement. -/
  | statement {body more : List Word} (hbody : IsBody body) (hmore : IsStatement more) :
    IsBody (body ++ more)

end

/-- The lines of a target, after which a script is open or not. -/
inductive IsProgram : List Word → Bool → Prop where
  /-- Nothing. -/
  | nil : IsProgram [] false
  /-- One more declaration. -/
  | declare {words : List Word} {isOpen : Bool} (h : IsProgram words isOpen) :
    IsProgram (words ++ [.declare]) isOpen
  /-- Another script, which closes the one before. -/
  | start {words : List Word} {isOpen : Bool} (h : IsProgram words isOpen) :
    IsProgram (words ++ [.start]) true
  /-- One more statement, which starts a script where none is open. -/
  | statement {words more : List Word} {isOpen : Bool} (h : IsProgram words isOpen)
    (hmore : IsStatement more) : IsProgram (words ++ more) true
  /-- The end of a script. -/
  | finish {words : List Word} (h : IsProgram words true) : IsProgram (words ++ [.finish]) false

/-- Words that a program can begin with. -/
def IsBeginning (words : List Word) : Prop :=
  ∃ rest isOpen, IsProgram (words ++ rest) isOpen

theorem IsBody.append {body : List Word} (h : IsBody body) :
    ∀ {more : List Word}, IsBody more → IsBody (body ++ more)
  | _, .nil => by rwa [List.append_nil]
  | _, .declare hmore => by
    rw [← List.append_assoc]
    exact (h.append hmore).declare
  | _, .statement hmore hlast => by
    rw [← List.append_assoc]
    exact (h.append hmore).statement hlast

theorem IsProgram.append {words : List Word} {isOpen : Bool} (h : IsProgram words isOpen) :
    ∀ {body : List Word}, IsBody body → ∃ isOpen', IsProgram (words ++ body) isOpen'
  | _, .nil => ⟨isOpen, by rwa [List.append_nil]⟩
  | _, .declare hbody => by
    obtain ⟨isOpen', h'⟩ := h.append hbody
    rw [← List.append_assoc]
    exact ⟨isOpen', h'.declare⟩
  | _, .statement hbody hlast => by
    obtain ⟨isOpen', h'⟩ := h.append hbody
    rw [← List.append_assoc]
    exact ⟨true, h'.statement hlast⟩

end Grammar

/-! ### Reading a program -/

/-- The open nesting blocks of the open script, innermost first, if a script is open. Each is marked
with whether its body may still be split. -/
abbrev Nesting := Option (List Bool)

namespace Nesting

open Grammar

/-- Reads one word, unless it cannot follow. -/
def step : Nesting → Word → Option Nesting
  | s, .declare => some s
  | some (_ :: _), .start => none
  | _, .start => some (some [])
  | s, .plain => some (some (s.getD []))
  | s, .nest conditional => some (some (conditional :: s.getD []))
  | some (true :: stack), .otherwise => some (some (false :: stack))
  | _, .otherwise => none
  | some (_ :: stack), .finish => some (some stack)
  | some [], .finish => some none
  | none, .finish => none

/-- Reads words up to the first one that cannot follow. -/
def run (s : Nesting) (words : List Word) : Option Nesting :=
  words.foldlM step s

theorem run_append (s : Nesting) (words more : List Word) :
    run s (words ++ more) = (run s words).bind fun t ↦ run t more :=
  List.foldlM_append

theorem run_cons (s : Nesting) (word : Word) (words : List Word) :
    run s (word :: words) = (step s word).bind fun t ↦ run t words := rfl

mutual

/-- After a statement, the nesting is as before, in a script that is open. -/
theorem run_statement : ∀ {words : List Word}, IsStatement words → ∀ s : Nesting,
    run s words = some (some (s.getD []))
  | _, .plain, s => by cases s <;> rfl
  | _, .nest conditional hbody, s => by
    rw [run_cons]
    show run (some (conditional :: s.getD [])) _ = _
    rw [run_append, run_body hbody]
    rfl
  | _, .choose hbody hsecond, s => by
    rw [run_cons]
    show run (some (true :: s.getD [])) _ = _
    rw [run_append, run_body hbody]
    -- the body of the conditional can be split once
    show run (some (false :: s.getD [])) _ = _
    rw [run_append, run_body hsecond]
    rfl

/-- After a body, the nesting is as before. -/
theorem run_body : ∀ {words : List Word}, IsBody words → ∀ stack : List Bool,
    run (some stack) words = some (some stack)
  | _, .nil, _ => rfl
  | _, .declare hbody, stack => by
    rw [run_append, run_body hbody]
    rfl
  | _, .statement hbody hmore, stack => by
    rw [run_append, run_body hbody]
    exact run_statement hmore (some stack)

end

/-- A program is read to its end, where no nesting block is open. -/
theorem run_program {words : List Word} {isOpen : Bool} (h : IsProgram words isOpen) :
    run none words = some (if isOpen then some [] else none) := by
  induction h with
  | nil => rfl
  | declare h ih =>
    rw [run_append, ih]
    rfl
  | @start words isOpen h ih =>
    rw [run_append, ih]
    cases isOpen <;> rfl
  | @statement words more isOpen h hmore ih =>
    rw [run_append, ih]
    show run _ more = _
    rw [run_statement hmore]
    cases isOpen <;> rfl
  | finish h ih =>
    rw [run_append, ih]
    rfl

/-- What a program can begin with is read to its end. -/
theorem run_isSome_of_isBeginning {words : List Word} (h : IsBeginning words) :
    (run none words).isSome = true := by
  obtain ⟨rest, isOpen, h⟩ := h
  have hrun := run_program h
  rw [run_append] at hrun
  cases hfront : run none words with
  | some s => rfl
  | none =>
    rw [hfront] at hrun
    cases hrun

end Nesting

end BlockScript
