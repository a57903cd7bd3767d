import Mathlib.Data.List.Basic

/-!
# A queue that delivers again

An entry stays in the queue until it is acknowledged, and until then it may be taken any number of
times, also by several consumers at once; each has a copy of its own. What a consumer acknowledges
is a number, so everything depends on the numbers: no two messages may share one (`Numbered`). Then
a message leaves the queue only because someone who has that message is done with it
(`Step.exists_message`).

`D` is the type of the entries and of the copies, which may differ in what `seq` and `message` do
not show, such as the number of deliveries.
-/

open List

namespace Queue

variable {D M : Type*} {seq : D → Nat} {message : D → M} {entries entries' : List D}
  {held held' done : D → Prop} {next next' : Nat}

/-- Numbers are used once, and whoever has a copy of an entry has its message. -/
structure Numbered (seq : D → Nat) (message : D → M) (entries : List D) (held : D → Prop)
    (next : Nat) : Prop where
  entries_lt : ∀ {e}, e ∈ entries → seq e < next
  held_lt : ∀ {d}, held d → seq d < next
  message_eq : ∀ {e e'}, e ∈ entries → e' ∈ entries → seq e = seq e' → message e = message e'
  held_eq : ∀ {e d}, e ∈ entries → held d → seq e = seq d → message e = message d

/-- What may happen to the queue. Those who are `done` may acknowledge. -/
inductive Step (seq : D → Nat) (message : D → M) (entries : List D) (done : D → Prop)
    (next : Nat) : List D → Nat → Prop where
  | same : Step seq message entries done next entries next
  | sent {e : D} (hseq : seq e = next) :
      Step seq message entries done next (entries ++ [e]) (next + 1)
  | delivered {e copy : D} (he : e ∈ entries) (hseq : seq copy = seq e)
      (hmessage : message copy = message e) :
      Step seq message entries done next
        (entries.map fun d => if seq d = seq e then copy else d) next
  | acked {d : D} (hd : done d) :
      Step seq message entries done next (entries.filter fun e => seq e ≠ seq d) next

section

variable (h : Step seq message entries done next entries' next')
include h

theorem Step.next_le : next ≤ next' := by
  cases h with
  | sent hseq => exact Nat.le_succ _
  | _ => exact Nat.le_refl _

/-- Every entry after a step is new, or has the number and the message of one that was there. -/
theorem Step.entry_cases {e : D} (he : e ∈ entries') :
    (seq e = next ∧ next' = next + 1 ∧ entries' = entries ++ [e]) ∨
      ∃ e' ∈ entries, seq e' = seq e ∧ message e' = message e := by
  cases h with
  | same => exact .inr ⟨e, he, rfl, rfl⟩
  | sent hseq =>
    rcases mem_append.mp he with hold | hnew
    · exact .inr ⟨e, hold, rfl, rfl⟩
    · cases mem_singleton.mp hnew
      exact .inl ⟨hseq, rfl, rfl⟩
  | @delivered e₀ copy he₀ hseq hmessage =>
    obtain ⟨e', he', rfl⟩ := mem_map.mp he
    by_cases hnumber : seq e' = seq e₀
    · rw [if_pos hnumber]
      exact .inr ⟨e₀, he₀, hseq.symm, hmessage.symm⟩
    · rw [if_neg hnumber]
      exact .inr ⟨e', he', rfl, rfl⟩
  | acked hd => exact .inr ⟨e, mem_of_mem_filter he, rfl, rfl⟩

end

/-- Numbers stay unique, if a copy is taken from the queue or has been there. -/
theorem Numbered.step (hn : Numbered seq message entries held next)
    (h : Step seq message entries done next entries' next')
    (hheld : ∀ d, held' d → held d ∨ ∃ e ∈ entries, seq e = seq d ∧ message e = message d) :
    Numbered seq message entries' held' next' := by
  have hle := h.next_le
  have hcopy : ∀ d, held' d →
      seq d < next ∧ ∀ e ∈ entries, seq e = seq d → message e = message d := by
    intro d hd
    rcases hheld d hd with hold | ⟨e₀, he₀, hseq, hmessage⟩
    · exact ⟨hn.held_lt hold, fun e he heq => hn.held_eq he hold heq⟩
    · rw [← hseq, ← hmessage]
      exact ⟨hn.entries_lt he₀, fun e he heq => hn.message_eq he he₀ heq⟩
  constructor
  · intro e he
    rcases h.entry_cases he with ⟨hseq, hnext, -⟩ | ⟨e', he', hseq, -⟩
    · omega
    · have hlt := hn.entries_lt he'
      omega
  · intro d hd
    have hlt := (hcopy d hd).1
    omega
  · intro e₁ e₂ he₁ he₂ heq
    rcases h.entry_cases he₁ with ⟨hseq₁, -, hs₁⟩ | ⟨e₁', he₁', hseq₁, hm₁⟩ <;>
      rcases h.entry_cases he₂ with ⟨hseq₂, -, hs₂⟩ | ⟨e₂', he₂', hseq₂, hm₂⟩
    · have hlast := append_cancel_left (hs₁.symm.trans hs₂)
      cases hlast
      rfl
    · have hlt := hn.entries_lt he₂'
      omega
    · have hlt := hn.entries_lt he₁'
      omega
    · rw [← hm₁, ← hm₂]
      exact hn.message_eq he₁' he₂' (by omega)
  · intro e d he hd heq
    obtain ⟨hlt, hmessage⟩ := hcopy d hd
    rcases h.entry_cases he with ⟨hseq, -⟩ | ⟨e', he', hseq, hm⟩
    · omega
    · rw [← hm]
      exact hmessage e' he' (by omega)

/-- **No message is lost.** It stays in the queue, or someone who has it is done. -/
theorem Step.exists_message (h : Step seq message entries done next entries' next')
    (hn : Numbered seq message entries held next) (hdone : ∀ d, done d → held d) {m : M}
    (hm : ∃ e ∈ entries, message e = m) :
    (∃ e ∈ entries', message e = m) ∨ ∃ d, done d ∧ message d = m := by
  obtain ⟨e, he, rfl⟩ := hm
  cases h with
  | same => exact .inl ⟨e, he, rfl⟩
  | sent hseq => exact .inl ⟨e, mem_append_left _ he, rfl⟩
  | @delivered e₀ copy he₀ hseq hmessage =>
    refine .inl ⟨_, mem_map_of_mem he, ?_⟩
    by_cases hnumber : seq e = seq e₀
    · rw [if_pos hnumber, hmessage]
      exact (hn.message_eq he he₀ hnumber).symm
    · rw [if_neg hnumber]
  | @acked d hd =>
    by_cases hnumber : seq e = seq d
    · exact .inr ⟨d, hd, (hn.held_eq he (hdone d hd) hnumber).symm⟩
    · exact .inl ⟨e, mem_filter.mpr ⟨he, by simpa using hnumber⟩, rfl⟩

end Queue
