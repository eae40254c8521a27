import Mathlib.Algebra.GroupWithZero.Nat

/-! Translation of user accesses through the four levels of page tables.

Memory is read through `read`, which gives the entry at an index of the table
at an address. An access needs the user bit at every level; it may write where
every level may, and fetch instructions where no level forbids it. -/

namespace Nagi.Lib.Paging

/-- The physical page behind an address and what a user may do with it. -/
structure Access where
  page : Nat
  writable : Bool
  executable : Bool
  deriving DecidableEq

def addressMask : BitVec 64 := 0x000ffffffffff000#64

variable (read : Nat → Nat → BitVec 64) (address : Nat)

/-- The levels that are left, by the bit at which their index starts. -/
def walk : List Nat → Access → Option Access
  | [], access => some access
  | shift :: rest, access =>
    let entry := read access.page (address / 2 ^ shift % 512)
    let target := (entry &&& addressMask).toNat
    let writable := access.writable && entry.getLsbD 1
    let executable := access.executable && !entry.getLsbD 63
    if !entry.getLsbD 0 || !entry.getLsbD 2 then none
    else if entry.getLsbD 7 && 12 < shift && shift < 39 then
      some ⟨target / 2 ^ shift * 2 ^ shift + address % 2 ^ shift / 4096 * 4096, writable, executable⟩
    else walk rest ⟨target, writable, executable⟩

def userAccess (cr3 : Nat) : Option Access := walk read address [39, 30, 21, 12] ⟨cr3, true, true⟩

variable {read address}

theorem walk_blocked {shift : Nat} {rest : List Nat} {access : Access}
    (blocked : let entry := read access.page (address / 2 ^ shift % 512)
      entry.getLsbD 0 = false ∨ entry.getLsbD 2 = false) : walk read address (shift :: rest) access = none := by
  apply if_pos
  simpa using blocked

/-- An entry that names a table or, on the last level, a page. -/
structure Leads (entry : BitVec 64) (target : Nat) (writable executable : Bool) : Prop where
  present : entry.getLsbD 0 = true
  user : entry.getLsbD 2 = true
  small : entry.getLsbD 7 = false
  target : (entry &&& addressMask).toNat = target
  writable : entry.getLsbD 1 = writable
  executable : entry.getLsbD 63 = !executable

theorem walk_leads {shift target : Nat} {rest : List Nat} {access : Access} {writable executable : Bool}
    (leads : Leads (read access.page (address / 2 ^ shift % 512)) target writable executable) :
    walk read address (shift :: rest) access =
      walk read address rest ⟨target, access.writable && writable, access.executable && executable⟩ := by
  rw [walk]
  simp only [leads.present, leads.user, leads.small, leads.target, leads.writable, leads.executable]
  simp

/-- The last table, with the entry of an item where one is and an empty one elsewhere, gets to the page of that item. -/
theorem walk_leaf_iff {ι : Type} {p : ι → Prop} {page : ι → Access} {table : Nat} {access : Access}
    (held : ∀ item, p item →
      Leads (read table (address / 2 ^ 12 % 512)) (page item).page (page item).writable (page item).executable)
    (empty : (∀ item, ¬p item) → read table (address / 2 ^ 12 % 512) = 0) :
    walk read address [12] ⟨table, true, true⟩ = some access ↔ ∃ item, p item ∧ access = page item := by
  constructor
  · intro found
    by_cases mapped : ∃ item, p item
    · obtain ⟨item, here⟩ := mapped
      rw [walk_leads (held item here)] at found
      exact ⟨item, here, (Option.some.inj found).symm⟩
    · have blank := empty (not_exists.mp mapped)
      rw [walk_blocked (.inl (blank ▸ BitVec.getLsbD_zero))] at found
      cases found
  · rintro ⟨item, here, rfl⟩
    exact walk_leads (held item here)

end Nagi.Lib.Paging
