import QosPlanner.Run.While
import QosPlanner.Stdio.Stream
import QosPlanner.Text.CString
import QosPlanner.Rules.Commands

/-!
# Reading what a command prints

The loop of `common::exec` (`src/common/util.h`) over the pipe of a command: as long as
`feof` says that the end has not been met, `fgets` reads into a buffer of 128 bytes, and
the buffer is appended as a C string. At the end of file the loop ends, with everything
before the first zero byte of each line; a persistent read error never sets what the loop
waits for. Over commands that print texts it is the `Common.exec` of the other modules
(`exec_refines`).
-/

namespace QosPlanner
set_option autoImplicit false

open Stdio

namespace Exec

/-- The loop of `exec` at its head: the pipe and `*out`. -/
structure Reading where
  pipe : Stream
  out : List UInt8
  deriving DecidableEq, Repr

/-- `!feof(pipe)` -/
def goesOn (s : Reading) : Bool := !s.pipe.feof

/-- The body of the loop. -/
def turn (s : Reading) : Reading :=
  match fgets 128 s.pipe with
  | (some buffer, pipe) => ⟨pipe, s.out ++ cString buffer⟩
  | (none, pipe) => ⟨pipe, s.out⟩

/-- `exec`, with a bound on the turns of its loop: the result, and `*out` after the call. `popen`
gives no pipe for a command that cannot be started. -/
def exec (popen : String → Option Stream) (turns : Nat) (cmd : String) (out : List UInt8) : Option (Bool × List UInt8) :=
  match popen cmd with
  | none => some (false, out)
  | some pipe => (Run.loop goesOn turn turns ⟨pipe, out⟩).map fun s => (true, s.out)

/-- The pipe of a command that has been started, and which writes `bytes`. -/
def start (bytes : List UInt8) (ending : Ending) (out : List UInt8) : Reading := ⟨⟨bytes, ending, false⟩, out⟩

/-- At the head of the loop over a pipe that comes to the end of file, when `read` has been
read: a part of it has been appended, and all of it iff there was no zero byte. -/
structure HasRead (bytes out read : List UInt8) (s : Reading) : Prop where
  split : bytes = read ++ s.pipe.bytes
  few : s.out.length ≤ out.length + read.length
  exact : s.out = out ++ read ↔ 0 ∉ read
  ending : s.pipe.ending = .endOfFile
  atEnd : s.pipe.feof = true → s.pipe.bytes = []

/-- How far the loop is from its end. -/
def rank (s : Reading) : Nat := s.pipe.bytes.length + if s.pipe.feof then 0 else 1

variable {bytes out read : List UInt8}

/-- A line appended behind what has been read. -/
theorem HasRead.append {s : Reading} (has : HasRead bytes out read s) (line : List UInt8) :
    (s.out ++ cString line).length ≤ out.length + (read ++ line).length ∧
      (s.out ++ cString line = out ++ (read ++ line) ↔ 0 ∉ read ++ line) := by
  have shorter := length_cString_le line
  have few := has.few
  refine ⟨by simp only [List.length_append]; omega, ?_⟩
  rw [List.mem_append, not_or, ← has.exact, ← cString_eq_self_iff, ← List.append_assoc]
  constructor
  · intro same
    have lengths := congrArg List.length same
    simp only [List.length_append] at lengths
    exact List.append_inj same (by simp only [List.length_append]; omega)
  · rintro ⟨before, whole⟩
    rw [before, whole]

/-- **One turn** reads a line, or finds the end. -/
theorem HasRead.turn {s : Reading} (has : HasRead bytes out read s) (goes : goesOn s = true) :
    (∃ read, HasRead bytes out read (turn s)) ∧ rank (turn s) < rank s := by
  have before : s.pipe.feof = false := by simpa [goesOn] using goes
  have rankHere : rank s = s.pipe.bytes.length + 1 := by simp [rank, before]
  rcases fgets_endOfFile (by decide : 2 ≤ 128) has.ending with
    ⟨line, rest, feof, call, some, split, atEnd⟩ | ⟨call, none⟩
  · have next : Exec.turn s = ⟨⟨rest, .endOfFile, feof⟩, s.out ++ cString line⟩ := by rw [Exec.turn, call]
    obtain ⟨few, exact⟩ := has.append line
    rw [next, rankHere, split]
    refine ⟨⟨read ++ line, ?_, few, exact, rfl, fun ends => ?_⟩, ?_⟩
    · rw [has.split, split, List.append_assoc]
    · exact (atEnd ends).resolve_left (by simp [before])
    · have longer := List.length_pos_iff.2 some
      rw [List.length_append, rank]
      dsimp only
      split <;> omega
  · have next : Exec.turn s = ⟨⟨[], .endOfFile, true⟩, s.out⟩ := by rw [Exec.turn, call]
    rw [next, rankHere]
    refine ⟨⟨read, ?_, has.few, has.exact, rfl, fun _ => rfl⟩, by simp [rank]⟩
    rw [has.split, none]

/-- **At the end of file** the loop ends, within a turn for each byte and two more. -/
theorem loop_of_endOfFile (bytes out : List UInt8) :
    ∃ last, Run.loop goesOn turn (bytes.length + 2) (start bytes .endOfFile out) = some last ∧
      (last.out = out ++ bytes ↔ 0 ∉ bytes) := by
  have init : HasRead bytes out [] (start bytes .endOfFile out) :=
    ⟨rfl, by simp [start], by simp [start], rfl, fun ends => by cases ends⟩
  obtain ⟨last, ended, ⟨read, has⟩, stops⟩ := Run.loop_of_rank (I := fun s => ∃ read, HasRead bytes out read s)
    (fun s ⟨_, has⟩ goes => has.turn goes) ⟨[], init⟩ (by simp [rank, start] : rank _ < bytes.length + 2)
  refine ⟨last, ended, ?_⟩
  have split := has.split
  rw [has.atEnd (by simpa [goesOn] using stops), List.append_nil] at split
  rw [split]
  exact has.exact

/-- With a persistent read error the loop does not end. -/
theorem not_ends_of_readError (bytes out : List UInt8) (last : Reading) :
    ¬ Run.Ends goesOn turn (start bytes .readError out) last := by
  refine Run.not_ends (I := fun s => s.pipe.ending = .readError ∧ s.pipe.feof = false) ?_ ⟨rfl, rfl⟩
  rintro s ⟨ending, before⟩
  obtain ⟨again, same⟩ := fgets_readError 128 ending
  refine ⟨by simp [goesOn, before], ?_⟩
  rw [turn]
  split
  · rename_i call
    rw [call] at again same
    exact ⟨again, same.trans before⟩
  · rename_i call
    rw [call] at again same
    exact ⟨again, same.trans before⟩

/-- **When `exec` reads all output.** For all that a command writes, the loop ends and `*out` has
grown by exactly that iff the output ends with the end of file and has no zero byte. -/
theorem reads_all_output_iff (bytes : List UInt8) (ending : Ending) (out : List UInt8) :
    (∃ last, Run.Ends goesOn turn (start bytes ending out) last ∧ last.out = out ++ bytes) ↔
      ending = .endOfFile ∧ 0 ∉ bytes := by
  cases ending with
  | endOfFile =>
    obtain ⟨last, ended, exact⟩ := loop_of_endOfFile bytes out
    constructor
    · rintro ⟨other, ends, all⟩
      obtain rfl := ends.unique ⟨_, ended⟩
      exact ⟨rfl, exact.1 all⟩
    · rintro ⟨-, whole⟩
      exact ⟨last, ⟨_, ended⟩, exact.2 whole⟩
  | readError =>
    constructor
    · rintro ⟨last, ends, -⟩
      exact absurd ends (not_ends_of_readError bytes out last)
    · rintro ⟨⟨⟩, -⟩

/-- A zero byte ends what is appended of its line; without output, a read error is enough for
the loop to go on forever. -/
theorem output_cut_off :
    (∃ last, Run.Ends goesOn turn (start [0x61, 0, 0x62, 0x0a, 0x63] .endOfFile []) last ∧ last.out = [0x61, 0x63]) ∧
      ∀ last, ¬ Run.Ends goesOn turn (start [] .readError []) last :=
  ⟨⟨⟨⟨[], .endOfFile, true⟩, [0x61, 0x63]⟩, ⟨4, by decide +kernel⟩, rfl⟩, not_ends_of_readError [] []⟩

/-! ## Texts -/

/-- A text as bytes. -/
def bytesOf (text : String) : List UInt8 := text.toUTF8.data.toList

theorem bytesOf_append (first second : String) : bytesOf (first ++ second) = bytesOf first ++ bytesOf second := by
  simp [bytesOf, ByteArray.data_append]

/-- The pipe of a command that prints a text and ends. -/
def pipeOf : CommandOutcome → Option Stream
  | .notStarted => none
  | .ended _ output => some ⟨bytesOf output, .endOfFile, false⟩

/-- **The same result**: over the pipes of commands that print texts without zeros, the loop
makes `exec` what it is to its callers. -/
theorem exec_refines (popen : String → CommandOutcome) (cmd out : String)
    (noZero : ∀ status output, popen cmd = .ended status output → 0 ∉ bytesOf output) :
    ∃ turns, exec (fun cmd => pipeOf (popen cmd)) turns cmd (bytesOf out) =
      some ((Common.exec popen cmd out).1, bytesOf (Common.exec popen cmd out).2) := by
  cases outcome : popen cmd with
  | notStarted =>
    refine ⟨0, ?_⟩
    simp only [exec, Common.exec, outcome, pipeOf]
  | ended status output =>
    obtain ⟨last, ended, all⟩ := loop_of_endOfFile (bytesOf output) (bytesOf out)
    have grown := all.2 (noZero status output outcome)
    rw [start] at ended
    refine ⟨(bytesOf output).length + 2, ?_⟩
    simp only [exec, Common.exec, outcome, pipeOf, ended, Option.map_some, grown, bytesOf_append]

end Exec

end QosPlanner
