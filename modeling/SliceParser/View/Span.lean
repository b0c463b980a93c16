/-
SPANS: a window `[start, stop)` on a base that is shared and never copied.

`drop` and `take` only move an edge of the window, and never beyond the other one. What they do to the content is
what they do to a list (`content_drop`, `content_take`), and the base stays (`base_drop`, `base_take`).
-/

namespace SliceParser

structure Span (κ : Type) where
  base : List κ
  start : Nat
  stop : Nat
  start_le_stop : start ≤ stop
  stop_le_length : stop ≤ base.length
  deriving DecidableEq

namespace Span

variable {κ : Type}

def whole (base : List κ) : Span κ :=
  ⟨base, 0, base.length, Nat.zero_le _, Nat.le_refl _⟩

def length (s : Span κ) : Nat := s.stop - s.start

def content (s : Span κ) : List κ := (s.base.drop s.start).take s.length

/-- the window without its first `n` units -/
def drop (s : Span κ) (n : Nat) : Span κ :=
  { s with
    start := s.start + min n s.length
    start_le_stop := by have := s.start_le_stop; simp only [length]; omega }

/-- the first `n` units of the window -/
def take (s : Span κ) (n : Nat) : Span κ :=
  { s with
    stop := s.start + min n s.length
    start_le_stop := Nat.le_add_right _ _
    stop_le_length := by have := s.stop_le_length; have := s.start_le_stop; simp only [length]; omega }

@[simp] theorem base_drop (s : Span κ) (n : Nat) : (s.drop n).base = s.base := rfl

@[simp] theorem base_take (s : Span κ) (n : Nat) : (s.take n).base = s.base := rfl

@[simp] theorem start_drop (s : Span κ) (n : Nat) : (s.drop n).start = s.start + min n s.length := rfl

@[simp] theorem stop_drop (s : Span κ) (n : Nat) : (s.drop n).stop = s.stop := rfl

@[simp] theorem start_take (s : Span κ) (n : Nat) : (s.take n).start = s.start := rfl

@[simp] theorem stop_take (s : Span κ) (n : Nat) : (s.take n).stop = s.start + min n s.length := rfl

@[simp] theorem length_drop (s : Span κ) (n : Nat) : (s.drop n).length = s.length - n := by
  have := s.start_le_stop
  simp only [length, start_drop, stop_drop]
  omega

@[simp] theorem length_take (s : Span κ) (n : Nat) : (s.take n).length = min n s.length := by
  simp only [length, start_take, stop_take]
  omega

@[simp] theorem length_content (s : Span κ) : s.content.length = s.length := by
  have := s.start_le_stop
  have := s.stop_le_length
  simp only [content, length, List.length_take, List.length_drop]
  omega

@[simp] theorem content_whole (base : List κ) : (whole base).content = base := by
  simp [content, whole, length]

@[simp] theorem content_drop (s : Span κ) (n : Nat) : (s.drop n).content = s.content.drop n := by
  simp only [content, length_drop, base_drop, start_drop, List.drop_take, List.drop_drop]
  by_cases h : n ≤ s.length
  · rw [Nat.min_eq_left h]
  · have hz : s.length - n = 0 := by omega
    rw [hz, List.take_zero, List.take_zero]

@[simp] theorem content_take (s : Span κ) (n : Nat) : (s.take n).content = s.content.take n := by
  simp only [content, length_take, base_take, start_take, List.take_take]

end Span

end SliceParser
