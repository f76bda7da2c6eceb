import Mathlib.Data.List.Basic

set_option autoImplicit false

namespace EventStream

def frame (payload : List Char) : List Char := 'd' :: 'a' :: 't' :: 'a' :: ':' :: ' ' :: payload ++ ['\n', '\n']

-- What a client keeps while it reads a stream: the line it is in, the data lines of the
-- event it is in, whether a carriage return has just ended a line, and the events so far.
structure Reader where
  line : List Char := []
  data : List (List Char) := []
  returned : Bool := false
  events : List (List Char) := []

-- The value of a data line, behind one blank if there is one; other fields do not matter.
def dataField : List Char → Option (List Char)
  | 'd' :: 'a' :: 't' :: 'a' :: rest =>
      match rest with
      | [] => some []
      | ':' :: ' ' :: value => some value
      | ':' :: value => some value
      | _ => none
  | _ => none

namespace Reader

def dispatch (r : Reader) : Reader :=
  { events := if r.data = [] then r.events else r.events ++ [List.intercalate ['\n'] r.data] }

def endLine (r : Reader) : Reader :=
  if r.line = [] then r.dispatch else { r with line := [], data := r.data ++ (dataField r.line).toList }

-- Lines end with a line feed, a carriage return or both.
def feed (r : Reader) (c : Char) : Reader :=
  if c = '\n' ∧ r.returned = true then { r with returned := false }
  else if c = '\n' then { r.endLine with returned := false }
  else if c = '\r' then { r.endLine with returned := true }
  else { r with line := r.line ++ [c], returned := false }

def read (r : Reader) (text : List Char) : Reader := text.foldl feed r

theorem read_append (r : Reader) (first second : List Char) : r.read (first ++ second) = (r.read first).read second :=
  List.foldl_append

end Reader

section Framing

def OneLine (payload : List Char) : Prop := '\n' ∉ payload ∧ '\r' ∉ payload

theorem feed_plain (r : Reader) (c : Char) (feedless : c ≠ '\n') (returnless : c ≠ '\r') :
    r.feed c = { r with line := r.line ++ [c], returned := false } := by
  rw [Reader.feed, if_neg fun both => feedless both.1, if_neg feedless, if_neg returnless]

theorem read_line (r : Reader) (payload : List Char) (single : OneLine payload) (settled : r.returned = false) :
    r.read payload = { r with line := r.line ++ payload } := by
  induction payload generalizing r with
  | nil => simp [Reader.read]
  | cons c payload ih =>
      obtain ⟨feeds, returns⟩ := single
      rw [List.mem_cons, not_or] at feeds returns
      have first := feed_plain r c (Ne.symm feeds.1) (Ne.symm returns.1)
      have rest := ih (r.feed c) ⟨feeds.2, returns.2⟩ (by rw [first])
      rw [Reader.read, List.foldl_cons, ← Reader.read, rest, first]
      simp [settled]

theorem feed_end (r : Reader) (settled : r.returned = false) : r.feed '\n' = { r.endLine with returned := false } := by
  simp [Reader.feed, settled]

theorem read_frame (events : List (List Char)) (payload : List Char) (single : OneLine payload) :
    ({ events := events } : Reader).read (frame payload) = { events := events ++ [payload] } := by
  have header : OneLine ('d' :: 'a' :: 't' :: 'a' :: ':' :: ' ' :: payload) := by
    obtain ⟨feeds, returns⟩ := single
    constructor <;> simpa using by assumption
  have line := read_line { events := events } _ header rfl
  have field : dataField ('d' :: 'a' :: 't' :: 'a' :: ':' :: ' ' :: payload) = some payload := rfl
  rw [frame, Reader.read_append, line]
  simp [Reader.read, feed_end, Reader.endLine, Reader.dispatch, field]

theorem read_frames (events payloads : List (List Char)) (single : ∀ payload ∈ payloads, OneLine payload) :
    ({ events := events } : Reader).read (payloads.flatMap frame) = { events := events ++ payloads } := by
  induction payloads generalizing events with
  | nil => simp [Reader.read]
  | cons payload payloads ih =>
      obtain ⟨first, rest⟩ := List.forall_mem_cons.mp single
      have after := ih (events ++ [payload]) rest
      rw [List.flatMap_cons, Reader.read_append, read_frame events payload first, after, List.append_assoc]
      rfl

theorem read_pieces (payloads : List (List Char)) (single : ∀ payload ∈ payloads, OneLine payload)
    (pieces : List (List Char)) (whole : pieces.flatten = payloads.flatMap frame) :
    (pieces.foldl Reader.read {}).events = payloads := by
  have joined : pieces.foldl Reader.read {} = ({} : Reader).read pieces.flatten := List.foldl_flatten.symm
  rw [joined, whole, read_frames [] payloads single, List.nil_append]

end Framing

end EventStream
