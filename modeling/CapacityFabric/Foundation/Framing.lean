import Mathlib.Tactic

/-!
# Cutting a stream into frames

A decoder looks at the front of a buffer and finds a frame there, needs more tokens, or
finds the stream corrupt.  Its verdicts stand when more tokens follow, so what a stream
says is a function of the stream alone: `drain` of all of it, however it arrives.
-/

namespace Framing

variable {T F E : Type*}

/-- What a decoder makes of the front of a buffer. -/
inductive Verdict (F E : Type*)
  | frame (f : F) (consumed : ℕ)
  | incomplete
  | corrupt (e : E)

/-- A decoder whose verdicts stand when more tokens follow. -/
structure Decoder (T F E : Type*) where
  decode : List T → Verdict F E
  consumed_pos : ∀ {b f n}, decode b = .frame f n → 0 < n
  consumed_le : ∀ {b f n}, decode b = .frame f n → n ≤ b.length
  decode_append : ∀ {b}, decode b ≠ .incomplete → ∀ c, decode (b ++ c) = decode b

/-- How a stream ends: with tokens that are no whole frame, or corrupt. -/
inductive Ending (T E : Type*)
  | waiting (rest : List T)
  | corrupt (e : E)

/-- The frames of a stream, and how it ends. -/
def Decoder.drain (D : Decoder T F E) (b : List T) : List F × Ending T E :=
  match _h : D.decode b with
  | .incomplete => ([], .waiting b)
  | .corrupt e => ([], .corrupt e)
  | .frame f n => ((f :: (D.drain (b.drop n)).1), (D.drain (b.drop n)).2)
termination_by b.length
decreasing_by
  all_goals
    have hpos := D.consumed_pos _h
    have hle := D.consumed_le _h
    rw [List.length_drop]
    omega

namespace Decoder

variable {D : Decoder T F E} {b : List T}

theorem drain_incomplete (h : D.decode b = .incomplete) : D.drain b = ([], .waiting b) := by
  rw [drain]
  split <;> simp_all

theorem drain_corrupt {e : E} (h : D.decode b = .corrupt e) : D.drain b = ([], .corrupt e) := by
  rw [drain]
  split <;> simp_all

theorem drain_frame {f : F} {n : ℕ} (h : D.decode b = .frame f n) :
    D.drain b = ((f :: (D.drain (b.drop n)).1), (D.drain (b.drop n)).2) := by
  rw [drain]
  split <;> simp_all

/-- The tokens are decoded whole as the frame, whatever follows them. -/
def Encodes (D : Decoder T F E) (f : F) (ts : List T) : Prop :=
  ∀ rest, D.decode (ts ++ rest) = .frame f ts.length

/-- A frame that has arrived in part only is incomplete. -/
theorem Encodes.decode_part {f : F} {ts part : List T} (h : Encodes D f ts) (hpart : part <+: ts)
    (hne : part ≠ ts) : D.decode part = .incomplete := by
  obtain ⟨rest, rfl⟩ := hpart
  by_contra hcomplete
  -- The verdict would stand, and take more than there is.
  have hdecode := h []
  rw [List.append_nil, D.decode_append hcomplete] at hdecode
  have hle := D.consumed_le hdecode
  rw [List.length_append] at hle
  exact hne (by rw [List.eq_nil_of_length_eq_zero (by omega : rest.length = 0), List.append_nil])

theorem Encodes.drain_append {f : F} {ts : List T} (h : Encodes D f ts) (b : List T) :
    D.drain (ts ++ b) = (f :: (D.drain b).1, (D.drain b).2) := by
  rw [drain_frame (h b), List.drop_left]

/-- Encoded frames in a row come out one by one, in their order. -/
theorem drain_flatten {fs : List F} {tss : List (List T)} (hnil : D.decode [] = .incomplete)
    (h : List.Forall₂ (Encodes D) fs tss) : D.drain tss.flatten = (fs, .waiting []) := by
  induction h with
  | nil => exact drain_incomplete hnil
  | cons hencodes _ ih =>
    rw [List.flatten_cons, drain_frame (hencodes _), List.drop_left, ih]

end Decoder

end Framing
