import ClusteredPoller.Doubles
import ClusteredPoller.Platform

/-!
# Growing strings

`clgstr.c`.  `string` holds the bytes of the allocation that have been written,
from its start.  Sizes are natural numbers: a string below `2 ^ 52` characters
needs none that does not fit a `size_t`.
-/

namespace ClusteredPoller.Database

structure Clgstr where
  length : Nat
  allocated : Nat
  string : List Char
  deriving DecidableEq

def clgstrCreate (preallocate : Nat) : Clgstr where
  length := 0
  allocated := preallocate
  string := []

namespace Clgstr

/-- The reallocation at the start of `clgstr_append`. -/
def reserve (gs : Clgstr) (addLen : Nat) : Clgstr :=
  if gs.allocated < gs.length + addLen + 1 then
    let newSize := timesOneAndHalf (gs.allocated + addLen + 1)
    { gs with allocated := newSize, string := gs.string.take newSize }
  else gs

/-- Copy a string behind the current one and terminate it. -/
def write (gs : Clgstr) (str : CString) : Clgstr where
  length := gs.length + str.chars.length
  allocated := gs.allocated
  string := gs.string.take gs.length ++ str.chars ++
    '\x00' :: gs.string.drop (gs.length + str.chars.length + 1)

end Clgstr

def clgstrAppend (gs : Clgstr) : Option CString → Except Fault Clgstr
  | none => .error .nullString
  | some str =>
      let room := gs.reserve str.chars.length
      if room.length + str.chars.length < room.allocated then .ok (room.write str)
      else .error .outOfBounds

/-- The memory behind `gs->string`. -/
def clgstrString (gs : Clgstr) : List Char := gs.string

namespace Clgstr

/-- The string is this text, inside its allocation. -/
structure Holds (gs : Clgstr) (text : CString) : Prop where
  length_eq : gs.length = text.chars.length
  fits : gs.length ≤ gs.allocated
  starts : gs.string.take gs.length = text.chars

/-- The text is followed by its NUL, also inside the allocation. -/
structure Terminated (gs : Clgstr) (text : CString) : Prop extends Holds gs text where
  room : gs.length < gs.allocated
  ends : ∃ rest, gs.string = text.chars ++ '\x00' :: rest

theorem create_holds (preallocate : Nat) :
    (clgstrCreate preallocate).Holds ⟨[], List.not_mem_nil⟩ :=
  ⟨rfl, Nat.zero_le _, rfl⟩

/-- The reallocation makes room for the string and its NUL and keeps the text. -/
theorem reserve_room {gs : Clgstr} (hfits : gs.length ≤ gs.allocated) (addLen : Nat) :
    (gs.reserve addLen).length = gs.length ∧
      (gs.reserve addLen).string.take gs.length = gs.string.take gs.length ∧
        gs.length + addLen < (gs.reserve addLen).allocated := by
  unfold reserve
  split
  · obtain ⟨hroom, -⟩ := timesOneAndHalf_bounds (gs.allocated + addLen + 1)
    refine ⟨rfl, ?_, ?_⟩
    · change (gs.string.take _).take gs.length = _
      rw [List.take_take, Nat.min_eq_left (by omega)]
    · change gs.length + addLen < timesOneAndHalf _
      omega
  · exact ⟨rfl, rfl, by omega⟩

/-- A new allocation is of the size of what it holds. -/
theorem reserve_allocated (gs : Clgstr) (addLen : Nat) :
    (gs.reserve addLen).allocated ≤ max gs.allocated (4 * (gs.length + addLen + 1)) := by
  unfold reserve
  split
  · obtain ⟨-, hmost⟩ := timesOneAndHalf_bounds (gs.allocated + addLen + 1)
    change timesOneAndHalf _ ≤ _
    omega
  · exact Nat.le_max_left _ _

/-- An append never fails, stays inside the allocation, and appends. -/
theorem append_holds {gs : Clgstr} {text : CString} (holds : gs.Holds text) (str : CString) :
    ∃ after, clgstrAppend gs (some str) = .ok after ∧ after.Terminated (text ++ str) := by
  obtain ⟨hlength, hkept, hinside⟩ := reserve_room holds.fits str.chars.length
  refine ⟨(gs.reserve str.chars.length).write str, ?_, ?_⟩
  · rw [clgstrAppend]
    exact if_pos (by rw [hlength]; exact hinside)
  · have hlengths : ((gs.reserve str.chars.length).write str).length =
        text.chars.length + str.chars.length := by
      change (gs.reserve _).length + _ = _
      rw [hlength, holds.length_eq]
    obtain ⟨rest, hwritten⟩ : ∃ rest, ((gs.reserve str.chars.length).write str).string =
        (text ++ str).chars ++ '\x00' :: rest := by
      refine ⟨(gs.reserve str.chars.length).string.drop
        ((gs.reserve str.chars.length).length + str.chars.length + 1), ?_⟩
      change (gs.reserve _).string.take (gs.reserve _).length ++ _ ++ _ = _
      rw [hlength, hkept, holds.starts, CString.append_chars]
    have hsame : ((gs.reserve str.chars.length).write str).allocated =
        (gs.reserve str.chars.length).allocated := rfl
    have hlen := holds.length_eq
    refine ⟨⟨?_, ?_, ?_⟩, ?_, rest, hwritten⟩
    · rw [hlengths, CString.append_chars, List.length_append]
    · omega
    · rw [hwritten, hlengths, ← List.length_append]
      exact List.take_left
    · omega

/-- What is duplicated is the text. -/
theorem Terminated.strdup_eq {gs : Clgstr} {text : CString} (terminated : gs.Terminated text) :
    strdup (clgstrString gs) = .ok text := by
  obtain ⟨rest, hstring⟩ := terminated.ends
  rw [clgstrString, hstring]
  exact strdup_terminated text rest

end Clgstr

end ClusteredPoller.Database
