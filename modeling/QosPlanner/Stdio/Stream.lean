import Mathlib

/-!
# Reading a stream by lines

An input stream of the C library: the bytes still to be read, what comes after them, and
the end-of-file indicator. `fgets` reads one byte less than the size of the buffer, or
through a newline. At the end of file it sets the indicator and returns what there is, and
a null pointer if that is nothing; a read error makes it return a null pointer whatever it
has read, and leaves the indicator alone.
-/

namespace Stdio
set_option autoImplicit false

/-- What a reader finds behind the last byte, each time it looks. -/
inductive Ending where
  | endOfFile
  | readError
  deriving DecidableEq, Repr

structure Stream where
  bytes : List UInt8
  ending : Ending
  /-- What `feof` returns. -/
  feof : Bool
  deriving DecidableEq, Repr

/-- A newline. -/
def newline : UInt8 := 10

/-- The bytes up to a length or through a newline, the bytes behind them, and whether the
stream had as many. -/
def takeLine : ℕ → List UInt8 → List UInt8 × List UInt8 × Bool
  | 0, bytes => ([], bytes, true)
  | _ + 1, [] => ([], [], false)
  | more + 1, byte :: bytes =>
    if byte = newline then ([byte], bytes, true)
    else
      let (line, rest, whole) := takeLine more bytes
      (byte :: line, rest, whole)

/-- `fgets`: what it has put into the buffer, `none` for a null pointer, and the stream after
the call. -/
def fgets (size : ℕ) (stream : Stream) : Option (List UInt8) × Stream :=
  match takeLine (size - 1) stream.bytes with
  | (line, rest, true) => (some line, { stream with bytes := rest })
  | (line, _, false) =>
    match stream.ending with
    | .endOfFile => (if line.isEmpty then none else some line, { stream with bytes := [], feof := true })
    | .readError => (none, { stream with bytes := [] })

/-- A line and what is behind it make up the bytes. -/
theorem takeLine_append {size : ℕ} {bytes line rest : List UInt8} {whole : Bool}
    (taken : takeLine size bytes = (line, rest, whole)) : bytes = line ++ rest := by
  induction size generalizing bytes line with
  | zero =>
    cases taken
    rfl
  | succ size ih =>
    cases bytes with
    | nil =>
      cases taken
      rfl
    | cons byte bytes =>
      rw [takeLine] at taken
      split at taken
      · cases taken
        rfl
      · generalize inner : takeLine size bytes = result at taken
        obtain ⟨line', rest', whole'⟩ := result
        cases taken
        rw [List.cons_append, ← ih inner]

/-- A line that is not whole is all there is. -/
theorem takeLine_rest {size : ℕ} {bytes line rest : List UInt8}
    (taken : takeLine size bytes = (line, rest, false)) : rest = [] := by
  induction size generalizing bytes line with
  | zero => cases taken
  | succ size ih =>
    cases bytes with
    | nil =>
      cases taken
      rfl
    | cons byte bytes =>
      rw [takeLine] at taken
      split at taken
      · cases taken
      · generalize inner : takeLine size bytes = result at taken
        obtain ⟨line', rest', whole'⟩ := result
        cases taken
        exact ih inner

/-- A whole line has a byte, if the buffer has room for one. -/
theorem takeLine_ne_nil {size : ℕ} {bytes line rest : List UInt8}
    (taken : takeLine (size + 1) bytes = (line, rest, true)) : line ≠ [] := by
  cases bytes with
  | nil => cases taken
  | cons byte bytes =>
    rintro rfl
    rw [takeLine] at taken
    split at taken <;> simp at taken

/-- **A call on a stream that comes to the end of file** reads a line, or finds the end. -/
theorem fgets_endOfFile {size : ℕ} {stream : Stream} (room : 2 ≤ size) (ending : stream.ending = .endOfFile) :
    (∃ line rest feof, fgets size stream = (some line, ⟨rest, .endOfFile, feof⟩) ∧ line ≠ [] ∧
      stream.bytes = line ++ rest ∧ (feof = true → stream.feof = true ∨ rest = [])) ∨
    fgets size stream = (none, ⟨[], .endOfFile, true⟩) ∧ stream.bytes = [] := by
  obtain ⟨more, rfl⟩ := Nat.exists_eq_add_of_le' room
  obtain ⟨bytes, _, before⟩ := stream
  cases ending
  generalize taken : takeLine (more + 1) bytes = result
  obtain ⟨line, rest, _ | _⟩ := result
  · have all := takeLine_append taken
    obtain rfl := takeLine_rest taken
    have call : fgets (more + 2) ⟨bytes, .endOfFile, before⟩ =
        (if line.isEmpty then none else some line, ⟨[], .endOfFile, true⟩) := by
      simp only [fgets, Nat.add_one_sub_one, taken]
    cases line with
    | nil => exact Or.inr ⟨call, all⟩
    | cons byte line => exact Or.inl ⟨_, _, _, call, by simp, all, fun _ => Or.inr rfl⟩
  · have call : fgets (more + 2) ⟨bytes, .endOfFile, before⟩ = (some line, ⟨rest, .endOfFile, before⟩) := by
      simp only [fgets, Nat.add_one_sub_one, taken]
    exact Or.inl ⟨_, _, _, call, takeLine_ne_nil taken, takeLine_append taken, Or.inl⟩

/-- A call on a stream that comes to a read error leaves the indicator alone. -/
theorem fgets_readError (size : ℕ) {stream : Stream} (ending : stream.ending = .readError) :
    (fgets size stream).2.ending = .readError ∧ (fgets size stream).2.feof = stream.feof := by
  obtain ⟨bytes, _, feof⟩ := stream
  cases ending
  unfold fgets
  split
  · exact ⟨rfl, rfl⟩
  · exact ⟨rfl, rfl⟩

end Stdio
