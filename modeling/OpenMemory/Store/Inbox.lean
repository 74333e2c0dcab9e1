import OpenMemory.Lib.Runs
import OpenMemory.Lib.Sorting
import OpenMemory.Store.Lifecycle

/-!
# Reading the inbox page by page

`list_inbox` takes a cursor and returns one, but reads the candidates from the first each time:
the page is the same whatever the cursor. A reader that follows `next_cursor` therefore gets
the whole inbox when it fits one page (`Listed`), and otherwise never sees the end of it.

- `ListInboxCommand.Accepted`: the command passes the checks of the service.
- `createdLe` is a total preorder on memories, so that a sorted list is in `(created_at, id)`
  order.
- `inbox_listed_iff` is the result.
-/

namespace OpenMemory

open Lib MemoryApplicationService InMemoryMemoryRepository InMemoryStore
open MonadExcept (ofExcept)

variable {R : Type} [Python R]

/-! ## The order of the inbox -/

/-- The instant of a creation time. -/
def Memory.createdInstant (m : Memory R) : Int := m.createdAt.wall - m.createdAt.offset.getD 0

theorem Memory.createdAt_offset (m : Memory R) : ∃ off, m.createdAt.offset = some off := by
  obtain ⟨at_, hat⟩ := m.createdAt_aware
  cases hoff : m.createdAt.offset with
  | some off => exact ⟨off, rfl⟩
  | none =>
    unfold ensureAware at hat
    rw [hoff] at hat
    cases hat

theorem createdLe_iff {a b : Memory R} : createdLe a b = true ↔
    a.createdInstant < b.createdInstant ∨
      (a.createdInstant = b.createdInstant ∧ a.id.str ≤ b.id.str) := by
  obtain ⟨x, hx⟩ := a.createdAt_offset
  obtain ⟨y, hy⟩ := b.createdAt_offset
  have heq : a.createdAt.pyEq b.createdAt = true ↔ a.createdInstant = b.createdInstant := by
    simp [DateTime.pyEq, Memory.createdInstant, hx, hy]
  unfold createdLe
  by_cases h : a.createdInstant = b.createdInstant
  · rw [if_pos (heq.mpr h)]
    simp [h]
  · rw [if_neg fun hcon => h (heq.mp hcon)]
    simp only [h, false_and, or_false, decide_eq_true_eq]
    rfl

instance createdLe_total : Std.Total fun a b : Memory R => createdLe a b = true where
  total a b := by
    simp only [createdLe_iff]
    rcases lt_trichotomy a.createdInstant b.createdInstant with h | h | h
    · exact .inl (.inl h)
    · rcases le_total a.id.str b.id.str with hid | hid
      · exact .inl (.inr ⟨h, hid⟩)
      · exact .inr (.inr ⟨h.symm, hid⟩)
    · exact .inr (.inl h)

instance createdLe_trans : IsTrans (Memory R) fun a b => createdLe a b = true where
  trans a b c := by
    simp only [createdLe_iff]
    rintro (hab | ⟨hab, hid⟩) (hbc | ⟨hbc, hid'⟩)
    · exact .inl (by omega)
    · exact .inl (by omega)
    · exact .inl (by omega)
    · exact .inr ⟨by omega, hid.trans hid'⟩

/-! ## One page -/

/-- The checks of `list_inbox`: scope, tenant, owner, connection and limit. -/
structure ListInboxCommand.Accepted (c : ListInboxCommand) : Prop where
  scope : "memory:read" ∈ c.scopes
  tenant : isBlank c.tenantId = false
  owner : ∃ o, validateOwnerId c.ownerId = .ok o
  connected : c.connectionRevoked = false
  limit : 1 ≤ c.limit ∧ c.limit ≤ 100

/-- The candidates an inbox command asks for. -/
def inboxOf (s : InMemoryStore R) (c : ListInboxCommand) : List (Memory R) :=
  s.memories.values.filter fun m =>
    addressable c.ownerId (some c.tenantId) m && decide (m.state = .candidate) &&
      (c.space.isNone || decide (m.space = c.space))

/-- One page: the candidates and the cursor that `list_inbox` returns for `cursor`. -/
def inboxPage (s : InMemoryStore R) (c : ListInboxCommand) (cursor : Option String) :
    Option (List (Memory R) × Option String) :=
  match (listInbox (inMemoryUnitOfWork R) { c with cursor := cursor }).run s with
  | .ok (result, _) => some (result.candidates, result.nextCursor)
  | .error _ => none

/-- Following `next_cursor` from the first page ends, and lists every matching candidate once,
in `(created_at, id)` order. -/
def Listed (s : InMemoryStore R) (c : ListInboxCommand) : Prop :=
  ∃ pages, Paged (inboxPage s c) none pages ∧ List.Perm pages (inboxOf s c) ∧
    pages.Pairwise fun a b => createdLe a b = true

/-- An accepted page is the first `limit` candidates, whatever the cursor. -/
theorem inboxPage_eq (s : InMemoryStore R) {c : ListInboxCommand} (hc : c.Accepted)
    (cursor : Option String) : inboxPage s c cursor =
      some (((inboxOf s c).insertionSort fun a b => createdLe a b = true).take c.limit.toNat,
        if c.limit < (inboxOf s c).length then some (toString c.limit) else none) := by
  obtain ⟨o, howner⟩ := hc.owner
  have hlimit := hc.limit
  have hrun : (listInbox (inMemoryUnitOfWork R) { c with cursor := cursor }).run s = .ok
      ({ candidates := (((inboxOf s c).insertionSort fun a b => createdLe a b = true).take
            (c.limit + 1).toNat).take c.limit.toNat
         nextCursor :=
          if c.limit < (((inboxOf s c).insertionSort fun a b => createdLe a b = true).take
              (c.limit + 1).toNat).length then some (toString c.limit) else none }, s) := by
    unfold listInbox validateScope validateScopeValue validateConnection
    rw [Txn.run_bind_of_ok (a := ()) (raiseIf_ok.mpr ⟨by simpa using hc.scope, rfl⟩),
      Txn.run_bind_of_ok (a := ()) (raiseIf_ok.mpr ⟨hc.tenant, rfl⟩),
      Txn.run_bind_of_ok (Txn.ofExcept_ok.mpr ⟨howner, rfl⟩),
      Txn.run_bind_of_ok (a := ()) (raiseIf_ok.mpr ⟨hc.connected, rfl⟩),
      Txn.run_bind_of_ok (a := ()) (raiseIf_ok.mpr ⟨by simpa using hlimit, rfl⟩)]
    rfl
  unfold inboxPage
  rw [hrun]
  -- one candidate more than the page is read, to see whether there is a next one
  have htake : min c.limit.toNat (c.limit + 1).toNat = c.limit.toNat := by omega
  have hmore : c.limit < ((min (c.limit + 1).toNat (inboxOf s c).length : Nat) : Int) ↔
      c.limit < (inboxOf s c).length := by omega
  simp only [List.take_take, htake, List.length_take, List.length_insertionSort, hmore]

/-! ## All pages -/

/-- With more candidates than one page holds, every page has a cursor and the reading never
ends. -/
theorem not_listed_of_lt {s : InMemoryStore R} {c : ListInboxCommand} (hc : c.Accepted)
    (hlong : c.limit < (inboxOf s c).length) : ¬ Listed s c := by
  rintro ⟨pages, hpages, -, -⟩
  refine not_paged_of_endless (fun cursor items hread => ?_) hpages
  rw [inboxPage_eq s hc, if_pos hlong] at hread
  cases hread

/-- The inbox is read in full exactly when it fits one page. -/
theorem inbox_listed_iff (s : InMemoryStore R) (c : ListInboxCommand) (hc : c.Accepted) :
    Listed s c ↔ ((inboxOf s c).length : Int) ≤ c.limit := by
  constructor
  · intro hlisted
    by_contra hlong
    exact not_listed_of_lt hc (by omega) hlisted
  · intro hfits
    have hpage := inboxPage_eq s hc none
    rw [if_neg (by omega), List.take_of_length_le (by simp; omega)] at hpage
    exact ⟨_, .last hpage, List.perm_insertionSort _ _, List.pairwise_insertionSort _ _⟩

/-- The first page of one candidate. -/
def firstPage : ListInboxCommand := { tenantId := "acme", ownerId := "alice", limit := 1 }

theorem accepted_firstPage : firstPage.Accepted where
  scope := by decide
  tenant := by decide
  owner := ⟨_, rfl⟩
  connected := rfl
  limit := by decide

/-- A second capture of the same owner, a day later. -/
def secondCapture : Call ℚ where
  service := serviceOn 2 9
  request := .capture (captureCommand "acme" "alice" "bread on monday" "k2")

theorem inbox_listed_iff_firstCapture : Listed (firstCapture.attempt {}).2 firstPage := by
  refine (inbox_listed_iff _ firstPage accepted_firstPage).mpr ?_
  have hone : (inboxOf (firstCapture.attempt {}).2 firstPage).length = 1 := by decide +kernel
  rw [hone]
  decide

/-- Two candidates, read one by one: the second is never shown, and the cursor of the first page
leads back to the first page. -/
theorem second_candidate_unread :
    ¬ Listed (secondCapture.attempt (firstCapture.attempt {}).2).2 firstPage := by
  refine not_listed_of_lt accepted_firstPage ?_
  have htwo : (inboxOf (secondCapture.attempt (firstCapture.attempt {}).2).2 firstPage).length
      = 2 := by decide +kernel
  rw [htwo]
  decide

end OpenMemory
