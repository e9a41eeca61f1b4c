import Mathlib.Data.List.Chain
import Mathlib.Tactic.Lemma
import CangjieSyntax.Token.Mode

/-!
# Stacks of modes

Code and the text of strings take turns in a stack of modes, and the outermost mode is the code of
the file. Every change that a token makes where it may stand keeps it so.
-/

namespace CangjieSyntax

/-- Whether a mode reads code. -/
def Mode.isCode : Mode → Bool
  | code _ => true
  | text .. => false

/-- A stack in which code and text take turns, with code at the bottom. -/
structure Mode.Stacked (modes : List Mode) : Prop where
  bottom : ∃ braces, modes.getLast? = some (.code braces)
  turns : modes.IsChain fun inner outer => inner.isCode = !outer.isCode

/-- Whether a change may be made in a stack: only a string opens in code and only a hole in a
string, and the outermost code never ends. -/
def ModeChange.Fits (modes : List Mode) : ModeChange → Prop
  | enter m => m.isCode = !(Mode.top modes).isCode
  | leave => 1 < modes.length
  | stay | openBrace | closeBrace | unwind => True

namespace ModeChange.Fits

variable {modes : List Mode} {quote : Quote} {multiLine : Bool}

/-- A string may open in code. -/
lemma string (h : (Mode.top modes).isCode) : Fits modes (.enter (.text quote multiLine)) := by
  change false = !(Mode.top modes).isCode
  rw [h]
  rfl

/-- A hole may open in a string. -/
lemma hole (h : (Mode.top modes).isCode = false) : Fits modes (.enter (.code 0)) := by
  change true = !(Mode.top modes).isCode
  rw [h]
  rfl

end ModeChange.Fits

namespace Mode.Stacked

variable {m : Mode} {modes : List Mode} {braces : Nat} {change : ModeChange}

lemma outermost (braces : Nat) : Stacked [.code braces] :=
  ⟨⟨braces, rfl⟩, .singleton _⟩

lemma ne_nil (h : Stacked modes) : modes ≠ [] := by
  rintro rfl
  obtain ⟨braces, hbottom⟩ := h.bottom
  exact nomatch hbottom

lemma length_pos (h : Stacked modes) : 0 < modes.length :=
  List.length_pos_iff.2 h.ne_nil

/-- Text is never outermost. -/
lemma one_lt_length (h : Stacked modes) (htext : (top modes).isCode = false) :
    1 < modes.length := by
  obtain ⟨braces, hbottom⟩ := h.bottom
  match modes with
  | [] => exact nomatch hbottom
  | [m] =>
    cases hbottom
    exact nomatch htext
  | _ :: _ :: _ => exact Nat.succ_lt_succ (Nat.succ_pos _)

/-- The mode around text is code. -/
lemma isCode_tail (h : Stacked modes) (htext : (top modes).isCode = false) :
    (top modes.tail).isCode := by
  have hlen := h.one_lt_length htext
  match modes with
  | [] | [_] => simp at hlen
  | inner :: outer :: _ =>
    have hturn := (List.isChain_cons_cons.1 h.turns).1
    change inner.isCode = false at htext
    change outer.isCode
    simpa [htext] using hturn

lemma push (h : Stacked modes) (hm : m.isCode = !(top modes).isCode) : Stacked (m :: modes) := by
  obtain ⟨braces, hbottom⟩ := h.bottom
  cases modes with
  | nil => exact nomatch hbottom
  | cons outer modes => exact ⟨⟨braces, hbottom⟩, .cons_cons hm h.turns⟩

lemma tail (h : Stacked modes) (hlen : 1 < modes.length) : Stacked modes.tail := by
  obtain ⟨braces, hbottom⟩ := h.bottom
  match modes with
  | [] | [_] => simp at hlen
  | _ :: _ :: _ => exact ⟨⟨braces, hbottom⟩, h.turns.tail⟩

/-- The count of braces has no part in how modes are stacked. -/
lemma recount (h : Stacked (.code braces :: modes)) (braces' : Nat) :
    Stacked (.code braces' :: modes) := by
  cases modes with
  | nil => exact outermost braces'
  | cons outer modes =>
    obtain ⟨hm, hturns⟩ := List.isChain_cons_cons.1 h.turns
    exact ⟨h.bottom, .cons_cons hm hturns⟩

/-- The outermost mode of a stack by itself. -/
lemma outermost_eq (h : Stacked modes) : ∃ braces, Mode.outermost modes = [.code braces] := by
  obtain ⟨braces, hbottom⟩ := h.bottom
  refine ⟨braces, ?_⟩
  obtain ⟨outer, rfl⟩ := List.getLast?_eq_some_iff.1 hbottom
  simp [Mode.outermost]

/-- A change that fits keeps a stack as it should be. -/
theorem apply (h : Stacked modes) (hfits : change.Fits modes) : Stacked (change.apply modes) := by
  cases change with
  | stay => exact h
  | enter m => exact h.push hfits
  | leave => exact h.tail hfits
  | openBrace =>
    match modes with
    | [] | .text .. :: _ => exact h
    | .code _ :: _ => exact h.recount _
  | closeBrace =>
    match modes with
    | [] | .text .. :: _ => exact h
    | .code _ :: _ => exact h.recount _
  | unwind =>
    obtain ⟨braces, e⟩ := h.outermost_eq
    change Stacked (Mode.outermost modes)
    rw [e]
    exact outermost braces

end Mode.Stacked

namespace ModeChange

variable {modes : List Mode}

lemma length_apply_le (change : ModeChange) (modes : List Mode) :
    (change.apply modes).length ≤ modes.length + 1 := by
  cases change with
  | stay => exact Nat.le_succ _
  | enter m => exact Nat.le_refl _
  | leave =>
    change modes.tail.length ≤ _
    rw [List.length_tail]
    omega
  | openBrace | closeBrace =>
    match modes with
    | [] | .text .. :: _ | .code _ :: _ => simp [apply]
  | unwind =>
    change (modes.drop _).length ≤ _
    rw [List.length_drop]
    omega

end ModeChange

end CangjieSyntax
