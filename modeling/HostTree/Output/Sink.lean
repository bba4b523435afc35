import HostTree.Text.Octets

/-!
Outputs that may fill up. A text that does not fit is cut where the room ends, and nothing is
accepted after it. `write_append` says that writing in pieces and writing at once leave the same.
-/

namespace HostTree

/-- An output, as far as it has been written. -/
structure Sink where
  written : Octets
  /-- The number of octets that are still accepted, if there is a limit. -/
  room : Option Nat
deriving DecidableEq

namespace Sink

/-- An output that accepts everything. -/
def unlimited : Sink := ⟨[], none⟩

/-- An output that accepts a number of octets. -/
def limited (room : Nat) : Sink := ⟨[], some room⟩

/-- Whether octets fit. -/
def fits (sink : Sink) (octets : Octets) : Bool :=
  match sink.room with
  | none => true
  | some room => octets.length ≤ room

/-- The output after octets: all of them if they fit, else as many as do. -/
def write (sink : Sink) (octets : Octets) : Sink :=
  match sink.room with
  | none => ⟨sink.written ++ octets, none⟩
  | some room => ⟨sink.written ++ octets.take room, some (room - octets.length)⟩

/-- Octets fit side by side if the first ones fit and the others fit after them. -/
theorem fits_append (sink : Sink) (s t : Octets) :
    sink.fits (s ++ t) = (sink.fits s && (sink.write s).fits t) := by
  obtain ⟨written, _ | room⟩ := sink
  · simp [fits, write]
  · simp only [fits, write, List.length_append, ← Bool.decide_and, decide_eq_decide]
    omega

/-- Writing in two pieces leaves what writing at once leaves. -/
theorem write_append (sink : Sink) (s t : Octets) :
    sink.write (s ++ t) = (sink.write s).write t := by
  obtain ⟨written, _ | room⟩ := sink
  · simp [write]
  · simp [write, List.take_append, Nat.sub_sub]

end Sink

/-- The part of an output that a text belongs to. -/
inductive OutputPart where
  /-- Text that stands for itself. -/
  | stream
  /-- The inside of a JSON object. -/
  | object
deriving DecidableEq

/-- A text to be written, and the part of the output it belongs to. -/
structure Piece where
  text : Octets
  part : OutputPart
deriving DecidableEq

namespace Piece

/-- A text that stands for itself. -/
def ofString (text : String) : Piece :=
  ⟨Octets.ofString text, .stream⟩

end Piece

namespace Sink

/-- Write pieces up to the first that does not fit, and tell which part that one belongs to. -/
def writeAll (sink : Sink) : List Piece → Option OutputPart × Sink
  | [] => (none, sink)
  | piece :: rest =>
    if sink.fits piece.text then (sink.write piece.text).writeAll rest
    else (some piece.part, sink.write piece.text)

end Sink

end HostTree
