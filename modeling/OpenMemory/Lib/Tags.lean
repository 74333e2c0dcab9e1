import Mathlib

/-!
# Tags of messages

A tag is computed from a message, under a key that is fixed. `IdealTag` says what is assumed of it
about the messages that occur: no two of them have the same tag (`injOn`), and a tag that somebody
presents fits only a message that has been tagged (`unforgeable`). Both can hold of a function with
finitely many tags, which is never injective on all messages.

Kinds of messages that share a key are kept apart by their form alone: a tag of the one kind is
none of the other (`ne_of_forms`), and a tag that fits a message of one kind was computed for that
kind (`tagged_of_form`).
-/

namespace OpenMemory.Lib

variable {μ τ : Type}

/-- The idealisation of a tag on the messages that occur, for the tags that are presented and the
messages that have been tagged. -/
structure IdealTag (tag : μ → τ) (messages : Set μ) (presented : Set τ) (tagged : Set μ) :
    Prop where
  injOn : Set.InjOn tag messages
  unforgeable : ∀ m ∈ messages, tag m ∈ presented → m ∈ tagged

namespace IdealTag

variable {tag : μ → τ} {messages : Set μ} {presented : Set τ} {tagged form form' : Set μ}
  {m m' : μ}

theorem tag_eq_iff (h : IdealTag tag messages presented tagged) (hm : m ∈ messages)
    (hm' : m' ∈ messages) : tag m = tag m' ↔ m = m' :=
  h.injOn.eq_iff hm hm'

/-- Messages of different forms have different tags. -/
theorem ne_of_forms (h : IdealTag tag messages presented tagged) (hforms : Disjoint form form')
    (hm : m ∈ messages) (hm' : m' ∈ messages) (hform : m ∈ form) (hform' : m' ∈ form') :
    tag m ≠ tag m' := by
  rw [Ne, h.tag_eq_iff hm hm']
  exact hforms.ne_of_mem hform hform'

/-- A message of one form whose tag is presented has been tagged as one of that form. -/
theorem tagged_of_form {tagged' : Set μ}
    (h : IdealTag tag messages presented (tagged ∪ tagged')) (hforms : Disjoint form form')
    (htagged : tagged ⊆ form) (hm : m ∈ messages) (hpresented : tag m ∈ presented)
    (hform : m ∈ form') : m ∈ tagged' :=
  (h.unforgeable m hm hpresented).resolve_left fun hin =>
    hforms.ne_of_mem (htagged hin) hform rfl

end IdealTag

end OpenMemory.Lib
