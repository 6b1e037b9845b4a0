import ScriptHost.Proofs.Text.Sizes
import ScriptHost.Supervision.Output

/-!
# What output holds

Captured output is a function of the limit and of all the text written, in order. The text is kept
as it is while it fits; else the longest start in whole characters is kept, with the marker behind
it. How the text was cut into calls is not to be seen.
-/

namespace ScriptHost

/-! ## The longest start that fits -/

section

variable {room : Nat} {start front cs : List Char}

theorem takeBytes_isPrefix (room : Nat) (cs : List Char) : takeBytes room cs <+: cs := by
  induction cs generalizing room with
  | nil => exact List.prefix_rfl
  | cons c cs ih =>
      rw [takeBytes]
      split
      · exact List.cons_prefix_cons.2 ⟨rfl, ih _⟩
      · exact List.nil_prefix

theorem utf8Len_takeBytes_le (room : Nat) (cs : List Char) :
    String.utf8Len (takeBytes room cs) ≤ room := by
  induction cs generalizing room with
  | nil => exact Nat.zero_le room
  | cons c cs ih =>
      rw [takeBytes]
      split
      · have hrest := ih (room - c.utf8Size)
        rw [String.utf8Len_cons]
        omega
      · exact Nat.zero_le room

/-- A start that fits is a start of what is kept. -/
theorem isPrefix_takeBytes (h : start <+: cs) (hfits : String.utf8Len start ≤ room) :
    start <+: takeBytes room cs := by
  induction cs generalizing room start with
  | nil => exact h
  | cons c cs ih =>
      cases start with
      | nil => exact List.nil_prefix
      | cons d start =>
          obtain ⟨rfl, hstart⟩ := List.cons_prefix_cons.1 h
          rw [String.utf8Len_cons] at hfits
          rw [takeBytes, if_pos (by omega)]
          exact List.cons_prefix_cons.2 ⟨rfl, ih hstart (by omega)⟩

/-- Behind a text that fits there is the room that it leaves. -/
theorem takeBytes_append_of_le (h : String.utf8Len front ≤ room) (cs : List Char) :
    takeBytes room (front ++ cs) = front ++ takeBytes (room - String.utf8Len front) cs := by
  induction front generalizing room with
  | nil => rfl
  | cons c front ih =>
      rw [String.utf8Len_cons] at h ⊢
      rw [List.cons_append, takeBytes, if_pos (by omega), ih (by omega), Nat.sub_sub,
        Nat.add_comm c.utf8Size]
      rfl

/-- Behind a text that does not fit nothing is kept. -/
theorem takeBytes_append_of_lt (h : room < String.utf8Len front) (cs : List Char) :
    takeBytes room (front ++ cs) = takeBytes room front := by
  induction front generalizing room with
  | nil => exact absurd h (Nat.not_lt_zero room)
  | cons c front ih =>
      rw [String.utf8Len_cons] at h
      rw [List.cons_append, takeBytes, takeBytes]
      split
      · rw [ih (by omega)]
      · rfl

end

/-- The longest start of a text, in whole characters, that takes at most `room` bytes. -/
structure LongestFit (room : Nat) (text start : String) : Prop where
  isPrefix : start.toList <+: text.toList
  fits : start.utf8ByteSize ≤ room
  longest : ∀ other : String, other.toList <+: text.toList → other.utf8ByteSize ≤ room →
    other.toList <+: start.toList

theorem longestFit_takeBytes (room : Nat) (text : String) :
    LongestFit room text (String.ofList (takeBytes room text.toList)) where
  isPrefix := by
    rw [String.toList_ofList]
    exact takeBytes_isPrefix room text.toList
  fits := by
    rw [String.utf8ByteSize_ofList]
    exact utf8Len_takeBytes_le room text.toList
  longest := by
    intro other hprefix hfits
    rw [Text.utf8ByteSize_eq_utf8Len] at hfits
    rw [String.toList_ofList]
    exact isPrefix_takeBytes hprefix hfits

/-! ## Calls -/

/-- A call that captures text. -/
inductive Capture where
  | write (text : String)
  | line (text : String)
deriving DecidableEq, Repr

namespace Capture

/-- The text that a call writes. -/
def text : Capture → String
  | write text => text
  | line text => text ++ "\n"

def perform (o : Output) : Capture → Output
  | write text => o.write text
  | line text => o.writeLine text

/-- The text that calls write one after the other. -/
def textOf (calls : List Capture) : String := String.join (calls.map text)

end Capture

namespace Output

/-- Output to which the given text has been written. -/
def holding (limit : Nat) (text : String) : Output :=
  if text.utf8ByteSize ≤ limit then ⟨limit, text, false⟩
  else ⟨limit, String.ofList (takeBytes limit text.toList) ++ truncationMark, true⟩

theorem empty_eq_holding (limit : Nat) : empty limit = holding limit "" :=
  (if_pos (Nat.zero_le limit)).symm

/-- One more write. The text that fits so far leaves room, in which the new one is cut as the whole
text would be; from the first cut on nothing changes. -/
theorem write_holding (limit : Nat) (earlier text : String) :
    (holding limit earlier).write text = holding limit (earlier ++ text) := by
  have hsize : (earlier ++ text).utf8ByteSize = earlier.utf8ByteSize + text.utf8ByteSize :=
    String.utf8ByteSize_append
  have hlength := Text.utf8ByteSize_eq_utf8Len earlier
  by_cases hearlier : earlier.utf8ByteSize ≤ limit
  · rw [holding, if_pos hearlier, write, if_neg Bool.false_ne_true]
    dsimp only
    by_cases htext : text.utf8ByteSize ≤ limit - earlier.utf8ByteSize
    · rw [if_pos htext, holding, if_pos (by omega)]
    · rw [if_neg htext, holding, if_neg (by omega), String.toList_append,
        takeBytes_append_of_le (by omega), String.ofList_append, String.ofList_toList, hlength]
  · rw [holding, if_neg hearlier, write, if_pos rfl, holding, if_neg (by omega),
      String.toList_append, takeBytes_append_of_lt (by omega)]

theorem perform_holding (limit : Nat) (earlier : String) (call : Capture) :
    call.perform (holding limit earlier) = holding limit (earlier ++ call.text) := by
  cases call with
  | write text => exact write_holding limit earlier text
  | line text =>
      rw [Capture.perform, writeLine, write_holding, write_holding, String.append_assoc,
        Capture.text]

theorem captured_holding (limit : Nat) (earlier : String) (calls : List Capture) :
    calls.foldl Capture.perform (holding limit earlier) =
      holding limit (earlier ++ Capture.textOf calls) := by
  induction calls generalizing earlier with
  | nil => exact congrArg (holding limit) String.append_empty.symm
  | cons call calls ih =>
      rw [List.foldl_cons, perform_holding, ih, Capture.textOf, Capture.textOf, List.map_cons,
        String.join_cons, String.append_assoc]

/-- What is captured is the text written if it fits, else its longest start that fits with the
marker behind it once; calls that write the same text leave the same. -/
theorem text_of_captures (limit : Nat) (calls : List Capture) :
    let text := Capture.textOf calls
    let contents := (calls.foldl Capture.perform (empty limit)).text
    (text.utf8ByteSize ≤ limit → contents = text) ∧
      (limit < text.utf8ByteSize →
        ∃ start, LongestFit limit text start ∧ contents = start ++ truncationMark) ∧
      ∀ others : List Capture, Capture.textOf others = text →
        (others.foldl Capture.perform (empty limit)).text = contents := by
  have hcaptured (calls : List Capture) : calls.foldl Capture.perform (empty limit) =
      holding limit (Capture.textOf calls) := by
    rw [empty_eq_holding, captured_holding, String.empty_append]
  dsimp only
  refine ⟨?_, ?_, ?_⟩
  · intro hfits
    rw [hcaptured, holding, if_pos hfits]
  · intro hlong
    refine ⟨_, longestFit_takeBytes limit (Capture.textOf calls), ?_⟩
    rw [hcaptured, holding, if_neg (Nat.not_le_of_lt hlong)]
  · intro others hsame
    rw [hcaptured, hcaptured, hsame]

/-- The room ends inside the second character. -/
example : ([.write "a", .line "é", .write "b"].foldl Capture.perform (empty 2)).text =
    "a\n[output truncated]" := by
  decide

end Output

end ScriptHost
