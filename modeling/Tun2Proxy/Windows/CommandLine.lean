/-
  File:      Tun2Proxy/Windows/CommandLine.lean
  Subject:   The command line of the elevated process (src/bin/windows_elevation/mod.rs).

  Windows hands a process one line of UTF-16 units, and the process splits it into arguments. What a
  backslash means is decided by what stands behind the run of backslashes it belongs to, so the
  reader counts them (`Scan.backslashes`), and so does the writer (`quoteLoop`).

  The known readers differ in what a doubled quote inside quotes does besides standing for a quote:
  quoting goes on or ends (`doubled`). The writer makes none, so they all read it the same.
-/
import Mathlib.Data.List.Basic

namespace Tun2Proxy.CommandLine

def NUL : UInt16 := 0
def TAB : UInt16 := 9
def SPACE : UInt16 := 32
def QUOTE : UInt16 := 34
def BACKSLASH : UInt16 := 92

/-- A run of backslashes. -/
def slashes (n : Nat) : List UInt16 := List.replicate n BACKSLASH

/-! ## 1. The writer -/

/-- The loop of `append_quoted_argument`, and what follows it. -/
def quoteLoop (commandLine : List UInt16) (backslashes : Nat) : List UInt16 → List UInt16
  | [] => commandLine ++ slashes (backslashes * 2) ++ [QUOTE]
  | value :: rest =>
    if value = BACKSLASH then quoteLoop commandLine (backslashes + 1) rest
    else if value = QUOTE then
      quoteLoop (commandLine ++ slashes (backslashes * 2 + 1) ++ [value]) 0 rest
    else quoteLoop (commandLine ++ slashes backslashes ++ [value]) 0 rest

def needsQuotes (argument : List UInt16) : Bool :=
  argument.isEmpty ||
    argument.any fun value => value == SPACE || value == TAB || value == QUOTE

def appendQuotedArgument (commandLine argument : List UInt16) : List UInt16 :=
  if needsQuotes argument then quoteLoop (commandLine ++ [QUOTE]) 0 argument
  else commandLine ++ argument

/-- The loop of `build_command_line`. -/
def buildLoop (commandLine : List UInt16) : List (List UInt16) → List UInt16
  | [] => commandLine
  | argument :: args =>
    let commandLine := if commandLine.isEmpty then commandLine else commandLine ++ [SPACE]
    buildLoop (appendQuotedArgument commandLine argument) args

def buildCommandLine (args : List (List UInt16)) : List UInt16 := buildLoop [] args ++ [NUL]

/-! ## 2. The reader -/

/-- Whether separators are part of the argument; `closed` is right behind a quote that ended it. -/
inductive Quoting where
  | outside
  | inside
  | closed
  deriving DecidableEq, Repr

/-- Behind any unit but a quote, an ended quoting is over. -/
def Quoting.settle : Quoting → Quoting
  | .inside => .inside
  | _ => .outside

/-- Where the reader stands: the argument it is in, and the backslashes it has just passed. -/
structure Scan where
  current : Option (List UInt16)
  quoting : Quoting
  backslashes : Nat

/-- Between two arguments. -/
def Scan.between : Scan := ⟨none, .outside, 0⟩

/-- The argument at hand, if no quote follows its backslashes. -/
def Scan.word (s : Scan) : List UInt16 := s.current.getD [] ++ slashes s.backslashes

/-- The arguments that end here: one or none. -/
def Scan.finish (s : Scan) : List (List UInt16) := if s.current.isSome then [s.word] else []

/-- A quote behind an even run of backslashes. -/
def Scan.quote (doubled : Quoting) (s : Scan) (arg : List UInt16) : Scan :=
  match s.quoting with
  | .outside => ⟨some arg, .inside, 0⟩
  | .inside => ⟨some arg, .closed, 0⟩
  | .closed => ⟨some (arg ++ [QUOTE]), doubled, 0⟩

def isSeparator (value : UInt16) : Bool := value == SPACE || value == TAB

/-- The rules of `CommandLineToArgvW` and the C runtime for the arguments behind the program. -/
def arguments (doubled : Quoting) (s : Scan) : List UInt16 → List (List UInt16)
  | [] => s.finish
  | value :: rest =>
    if value = NUL then s.finish
    else if value = BACKSLASH then
      arguments doubled ⟨some (s.current.getD []), s.quoting.settle, s.backslashes + 1⟩ rest
    else if value = QUOTE then
      let arg := s.current.getD [] ++ slashes (s.backslashes / 2)
      if s.backslashes % 2 = 1 then
        arguments doubled ⟨some (arg ++ [QUOTE]), s.quoting.settle, 0⟩ rest
      else arguments doubled (s.quote doubled arg) rest
    else if isSeparator value && s.quoting.settle == .outside then
      s.finish ++ arguments doubled .between rest
    else arguments doubled ⟨some (s.word ++ [value]), s.quoting.settle, 0⟩ rest

/-- What stands behind the program: it ends at the first separator that is not quoted. -/
def skipProgram (quoted : Bool) : List UInt16 → List UInt16
  | [] => []
  | value :: rest =>
    if value = NUL then []
    else if value = QUOTE then skipProgram (!quoted) rest
    else if isSeparator value && !quoted then rest
    else skipProgram quoted rest

/-- The arguments of a command line, without the program. -/
def commandLineToArgv (doubled : Quoting) (line : List UInt16) : List (List UInt16) :=
  arguments doubled .between (skipProgram false line)

/-- Text that is read as the whole of a program: its quotes come in pairs, and separators stand
    between them only. -/
def isProgram (quoted : Bool) : List UInt16 → Bool
  | [] => !quoted
  | value :: rest =>
    if value = NUL then false
    else if value = QUOTE then isProgram (!quoted) rest
    else if isSeparator value && !quoted then false
    else isProgram quoted rest

/-! ## 3. The reader, step by step -/

section Reader

variable {doubled : Quoting} {arg tail : List UInt16} {b : Nat}

/-- An argument that is not in quotes ends here. -/
inductive Stops : List UInt16 → Prop
  | nul (rest : List UInt16) : Stops (NUL :: rest)
  | space (rest : List UInt16) : Stops (SPACE :: rest)

@[simp] theorem slashes_zero : slashes 0 = [] := rfl

theorem slashes_succ_append (n : Nat) (tail : List UInt16) :
    slashes (n + 1) ++ tail = slashes n ++ BACKSLASH :: tail := by
  rw [slashes, List.replicate_succ', List.append_assoc]
  rfl

theorem arguments_backslash (quoting : Quoting) :
    arguments doubled ⟨some arg, quoting, b⟩ (BACKSLASH :: tail) =
      arguments doubled ⟨some arg, quoting.settle, b + 1⟩ tail := rfl

/-- A run of backslashes inside quotes is counted. -/
theorem arguments_slashes (n : Nat) :
    arguments doubled ⟨some arg, .inside, b⟩ (slashes n ++ tail) =
      arguments doubled ⟨some arg, .inside, b + n⟩ tail := by
  induction n generalizing tail with
  | zero => rfl
  | succ n ih =>
    rw [slashes_succ_append, ih, arguments_backslash]
    rfl

theorem arguments_stops {quoting : Quoting} (hq : quoting.settle = .outside) (h : Stops tail) :
    arguments doubled ⟨some arg, quoting, b⟩ tail =
      (arg ++ slashes b) :: arguments doubled .between tail := by
  cases h with
  | nul rest => rfl
  | space rest =>
    rw [arguments, if_neg (by decide), if_neg (by decide), if_neg (by decide), hq]
    rfl

/-- A unit without a meaning of its own joins the argument, behind the backslashes before it. -/
theorem arguments_plain {value : UInt16} {quoting : Quoting} (hnul : value ≠ NUL)
    (hslash : value ≠ BACKSLASH) (hquote : value ≠ QUOTE)
    (hsep : isSeparator value = true → quoting = .inside) (current : Option (List UInt16)) :
    arguments doubled ⟨current, quoting, b⟩ (value :: tail) =
      arguments doubled ⟨some (current.getD [] ++ slashes b ++ [value]), quoting.settle, 0⟩
        tail := by
  have hgoes : ¬ (isSeparator value && quoting.settle == .outside) = true := by
    intro hend
    rw [Bool.and_eq_true] at hend
    rw [hsep hend.1] at hend
    exact absurd hend.2 (by decide)
  rw [arguments, if_neg hnul, if_neg hslash, if_neg hquote, if_neg hgoes]
  rfl

/-- An odd run of backslashes makes the quote behind it literal. -/
theorem arguments_literal_quote (n : Nat) :
    arguments doubled ⟨some arg, .inside, n * 2 + 1⟩ (QUOTE :: tail) =
      arguments doubled ⟨some (arg ++ slashes n ++ [QUOTE]), .inside, 0⟩ tail := by
  have hodd : (n * 2 + 1) % 2 = 1 := by omega
  have hhalf : (n * 2 + 1) / 2 = n := by omega
  rw [arguments, if_neg (by decide), if_neg (by decide), if_pos rfl]
  simp only [hodd, hhalf, if_true]
  rfl

/-- An even one does not: the quote ends the quoting, and with it the argument. -/
theorem arguments_closing_quote (n : Nat) (h : Stops tail) :
    arguments doubled ⟨some arg, .inside, n * 2⟩ (QUOTE :: tail) =
      (arg ++ slashes n) :: arguments doubled .between tail := by
  have heven : ¬ n * 2 % 2 = 1 := by omega
  have hhalf : n * 2 / 2 = n := by omega
  rw [arguments, if_neg (by decide), if_neg (by decide), if_pos rfl]
  simp only [heven, hhalf, if_false]
  have hclosed : Quoting.closed.settle = .outside := rfl
  refine (arguments_stops hclosed h).trans ?_
  rw [slashes_zero, List.append_nil]
  rfl

end Reader

/-! ## 4. What is written is read back -/

section RoundTrip

variable {doubled : Quoting} {tail : List UInt16}

theorem quoteLoop_append (commandLine : List UInt16) (backslashes : Nat) (argument : List UInt16) :
    quoteLoop commandLine backslashes argument =
      commandLine ++ quoteLoop [] backslashes argument := by
  induction argument generalizing commandLine backslashes with
  | nil => simp [quoteLoop]
  | cons value rest ih =>
    rw [quoteLoop, quoteLoop]
    split
    · exact ih commandLine (backslashes + 1)
    · split
      · rw [ih (commandLine ++ _ ++ _), ih ([] ++ _ ++ _)]
        simp only [List.append_assoc, List.nil_append]
      · rw [ih (commandLine ++ _ ++ _), ih ([] ++ _ ++ _)]
        simp only [List.append_assoc, List.nil_append]

/-- Inside quotes, the rest of an argument is read back behind what is there already. The writer's
    count of backslashes is part of the argument that the reader has not seen yet. -/
theorem arguments_quoteLoop (h : Stops tail) (argument : List UInt16) (hnul : NUL ∉ argument)
    (arg : List UInt16) (backslashes : Nat) :
    arguments doubled ⟨some arg, .inside, 0⟩ (quoteLoop [] backslashes argument ++ tail) =
      (arg ++ slashes backslashes ++ argument) :: arguments doubled .between tail := by
  induction argument generalizing arg backslashes with
  | nil =>
    rw [quoteLoop, List.nil_append, List.append_assoc, arguments_slashes, Nat.zero_add]
    rw [List.singleton_append, arguments_closing_quote backslashes h, List.append_nil]
  | cons value rest ih =>
    obtain ⟨hvalue, hrest⟩ := not_or.mp (List.mem_cons.not.mp hnul)
    by_cases hslash : value = BACKSLASH
    · subst hslash
      rw [quoteLoop, if_pos rfl, ih hrest arg (backslashes + 1), List.append_assoc]
      rw [slashes_succ_append, List.append_assoc]
    by_cases hquote : value = QUOTE
    · subst hquote
      rw [quoteLoop, if_neg hslash, if_pos rfl, quoteLoop_append]
      simp only [List.nil_append, List.append_assoc]
      rw [arguments_slashes, Nat.zero_add, List.singleton_append, arguments_literal_quote]
      rw [ih hrest]
      simp
    · rw [quoteLoop, if_neg hslash, if_neg hquote, quoteLoop_append]
      simp only [List.nil_append, List.append_assoc]
      rw [arguments_slashes, Nat.zero_add, List.singleton_append]
      rw [arguments_plain (Ne.symm hvalue) hslash hquote (fun _ => rfl)]
      refine (ih hrest _ 0).trans ?_
      simp

/-- A text without separators and quotes is read as it stands. -/
theorem arguments_bare (h : Stops tail) (argument : List UInt16) (hnul : NUL ∉ argument)
    (hbare : ∀ value ∈ argument, isSeparator value = false ∧ value ≠ QUOTE)
    (arg : List UInt16) (backslashes : Nat) :
    arguments doubled ⟨some arg, .outside, backslashes⟩ (argument ++ tail) =
      (arg ++ slashes backslashes ++ argument) :: arguments doubled .between tail := by
  induction argument generalizing arg backslashes with
  | nil => rw [List.nil_append, arguments_stops rfl h, List.append_nil]
  | cons value rest ih =>
    obtain ⟨hvalue, hrest⟩ := not_or.mp (List.mem_cons.not.mp hnul)
    obtain ⟨hsep, hquote⟩ := hbare value List.mem_cons_self
    have ih' := ih hrest fun v hv => hbare v (List.mem_cons_of_mem _ hv)
    rw [List.cons_append]
    by_cases hslash : value = BACKSLASH
    · subst hslash
      refine (ih' arg (backslashes + 1)).trans ?_
      rw [List.append_assoc, slashes_succ_append, List.append_assoc]
    · rw [arguments_plain (Ne.symm hvalue) hslash hquote (fun hs => by simp [hsep] at hs)]
      refine (ih' _ 0).trans ?_
      simp

/-- Outside quotes and between arguments, a unit that is no separator starts an argument. -/
theorem arguments_begin {value : UInt16} (hnul : value ≠ NUL) (hsep : isSeparator value = false)
    (rest : List UInt16) :
    arguments doubled .between (value :: rest) =
      arguments doubled ⟨some [], .outside, 0⟩ (value :: rest) := by
  rw [arguments, arguments, if_neg hnul, if_neg hnul, hsep]
  rfl

theorem bare_of_needsQuotes {argument : List UInt16} (h : needsQuotes argument = false) :
    argument ≠ [] ∧ ∀ value ∈ argument, isSeparator value = false ∧ value ≠ QUOTE := by
  rw [needsQuotes, Bool.or_eq_false_iff] at h
  refine ⟨List.isEmpty_eq_false_iff.mp h.1, fun value hmem => ?_⟩
  have hvalue := List.any_eq_false.mp h.2 value hmem
  simpa [isSeparator, not_or] using hvalue

/-- **One argument**: whatever stood on the line, the text added to it is read as the argument. -/
theorem arguments_appendQuotedArgument (h : Stops tail) (argument : List UInt16)
    (hnul : NUL ∉ argument) :
    arguments doubled .between (appendQuotedArgument [] argument ++ tail) =
      argument :: arguments doubled .between tail := by
  unfold appendQuotedArgument
  split
  · rw [quoteLoop_append]
    exact arguments_quoteLoop h argument hnul [] 0
  · rename_i hneeds
    obtain ⟨hne, hbare⟩ := bare_of_needsQuotes (Bool.not_eq_true _ ▸ hneeds)
    obtain ⟨value, rest, rfl⟩ := List.exists_cons_of_ne_nil hne
    have hvalue : value ≠ NUL := fun heq => hnul (heq ▸ List.mem_cons_self)
    rw [List.nil_append, List.cons_append,
      arguments_begin hvalue (hbare value List.mem_cons_self).1]
    exact arguments_bare h (value :: rest) hnul hbare [] 0

theorem appendQuotedArgument_append (commandLine argument : List UInt16) :
    appendQuotedArgument commandLine argument =
      commandLine ++ appendQuotedArgument [] argument := by
  unfold appendQuotedArgument
  split
  · rw [quoteLoop_append, quoteLoop_append ([] ++ _), List.append_assoc, List.nil_append]
  · rw [List.nil_append]

theorem appendQuotedArgument_ne_nil (commandLine argument : List UInt16) :
    appendQuotedArgument commandLine argument ≠ [] := by
  unfold appendQuotedArgument
  split
  · rw [quoteLoop_append]
    simp
  · rename_i hneeds
    have hne := (bare_of_needsQuotes (Bool.not_eq_true _ ▸ hneeds)).1
    simp [hne]

/-- The arguments behind the first: each has a separator before it. -/
def following (args : List (List UInt16)) : List UInt16 :=
  args.flatMap fun argument => SPACE :: appendQuotedArgument [] argument

theorem buildLoop_eq {commandLine : List UInt16} (h : commandLine ≠ [])
    (args : List (List UInt16)) : buildLoop commandLine args = commandLine ++ following args := by
  induction args generalizing commandLine with
  | nil => simp [buildLoop, following]
  | cons argument args ih =>
    rw [buildLoop, ih (appendQuotedArgument_ne_nil _ _), if_neg (by simpa using h)]
    rw [appendQuotedArgument_append]
    simp [following]

theorem following_stops (args : List (List UInt16)) : Stops (following args ++ [NUL]) := by
  cases args with
  | nil => exact .nul []
  | cons argument args => exact .space _

theorem arguments_following (args : List (List UInt16)) (hargs : ∀ arg ∈ args, NUL ∉ arg) :
    arguments doubled .between (following args ++ [NUL]) = args := by
  induction args with
  | nil => rfl
  | cons argument args ih =>
    have hsep : arguments doubled .between (following (argument :: args) ++ [NUL]) =
        arguments doubled .between
          (appendQuotedArgument [] argument ++ (following args ++ [NUL])) := by
      rw [← List.append_assoc]
      rfl
    rw [hsep, arguments_appendQuotedArgument (following_stops args) argument
      (hargs argument List.mem_cons_self)]
    rw [ih fun arg hmem => hargs arg (List.mem_cons_of_mem _ hmem)]

theorem arguments_buildCommandLine (args : List (List UInt16)) (hargs : ∀ arg ∈ args, NUL ∉ arg) :
    arguments doubled .between (buildCommandLine args) = args := by
  cases args with
  | nil => rfl
  | cons argument args =>
    have hline : buildCommandLine (argument :: args) =
        appendQuotedArgument [] argument ++ (following args ++ [NUL]) := by
      rw [← List.append_assoc, ← buildLoop_eq (appendQuotedArgument_ne_nil [] argument)]
      rfl
    rw [hline, arguments_appendQuotedArgument (following_stops args) argument
      (hargs argument List.mem_cons_self)]
    rw [arguments_following args fun arg hmem => hargs arg (List.mem_cons_of_mem _ hmem)]

theorem skipProgram_program (program rest : List UInt16) (quoted : Bool)
    (h : isProgram quoted program = true) :
    skipProgram quoted (program ++ SPACE :: rest) = rest := by
  induction program generalizing quoted with
  | nil =>
    have hout : quoted = false := by simpa [isProgram] using h
    subst hout
    rfl
  | cons value program ih =>
    rw [isProgram] at h
    rw [List.cons_append, skipProgram]
    split at h
    · cases h
    · rename_i hnul
      rw [if_neg hnul]
      split at h
      · rename_i hquote
        rw [if_pos hquote, ih _ h]
      · rename_i hquote
        rw [if_neg hquote]
        split at h
        · cases h
        · rename_i hsep
          rw [if_neg hsep, ih _ h]

/-- **The arguments arrive**: behind any program the started process reads exactly the arguments
    that were put on the line, in order, under either reading of a doubled quote. -/
theorem argv_buildCommandLine (doubled : Quoting) (program : List UInt16)
    (hprogram : isProgram false program = true) (args : List (List UInt16))
    (hargs : ∀ arg ∈ args, NUL ∉ arg) :
    commandLineToArgv doubled (program ++ SPACE :: buildCommandLine args) = args := by
  rw [commandLineToArgv, skipProgram_program program _ false hprogram]
  exact arguments_buildCommandLine args hargs

/-- Behind a quoted program with a space in its path: a directory that ends in a backslash, a
    credential with a quote behind a backslash, and an empty argument. -/
theorem sample_argv_buildCommandLine :
    commandLineToArgv .inside
        ([34, 67, 32, 68, 34] ++ SPACE :: buildCommandLine [[67, 32, 92], [97, 92, 34, 98], []]) =
      [[67, 32, 92], [97, 92, 34, 98], []] :=
  argv_buildCommandLine .inside [34, 67, 32, 68, 34] (by decide)
    [[67, 32, 92], [97, 92, 34, 98], []] (by decide)

end RoundTrip

end Tun2Proxy.CommandLine
