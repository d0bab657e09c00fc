import Kipfs.Foundation.Credits

/-!
# Owners of handles, and where objects are

Parties keep the handles of a table in fields of their own, and reserve addresses for objects which
they are about to enter. `Holdings` is a table with the owners of each handle and the reservations
of each address. It is `Separate` when no handle has two owners and no address two objects. `Moves`
is all that a party can do to it: nothing new, a reservation at the limit, or the entry of an object
under a fresh handle; each keeps the holdings separate (`Separate.moves`), and none gives an owner
to a handle that has been issued (`owners_le_of_moves`).
-/

namespace Foundation

variable {Obj : Type}

/-- There is nothing in the first table that is not in the second. -/
structure Within (t' t : RefTable Obj) : Prop where
  issued : t'.issued = t.issued
  lookup : ∀ r obj, t'.lookup r = some obj → t.lookup r = some obj

theorem Within.refl (t : RefTable Obj) : Within t t := ⟨rfl, fun _ _ h => h⟩

theorem within_inc {t t' : RefTable Obj} {r : Int} (h : t.inc r = some t') : Within t' t := by
  obtain ⟨hissued, hlookup, _⟩ := RefTable.inc_spec h
  exact ⟨hissued, fun q obj hq => hlookup q ▸ hq⟩

theorem within_delete {t t' : RefTable Obj} {r : Int} (h : t.delete r = some t') : Within t' t := by
  obtain ⟨hissued, hothers, hcount⟩ := RefTable.delete_spec h
  refine ⟨hissued, fun q obj hq => ?_⟩
  by_cases hqr : q = r
  · -- what is still there was there more than once
    have hpos : 0 < t'.count q := RefTable.count_pos_iff.mpr ⟨obj, hq⟩
    have hmany : 1 < t.count r := by
      have := hcount q
      rw [if_pos hqr] at this
      rw [← hqr]
      omega
    rw [← RefTable.lookup_delete h hmany q, hq]
  · rw [← hothers q hqr, hq]

/-- A table, the owners of each handle, and the reservations of each address below a limit. -/
structure Holdings (Obj : Type) where
  table : RefTable Obj
  limit : Nat
  owners : Int → Nat
  reserved : Nat → Nat

namespace Holdings

/-- No handle has two owners, and no address two objects. -/
structure Separate (address : Obj → Nat) (H : Holdings Obj) : Prop where
  exclusive : ∀ r, H.owners r ≤ 1
  issued : ∀ r, r ∉ H.table.issued → H.owners r = 0
  below : ∀ r obj, H.table.lookup r = some obj → address obj < H.limit
  apart : ∀ r r' obj obj', H.table.lookup r = some obj → H.table.lookup r' = some obj' →
    address obj = address obj' → r = r'
  once : ∀ n, H.reserved n ≤ 1
  free : ∀ n, H.limit ≤ n → H.reserved n = 0
  unused : ∀ r obj, H.table.lookup r = some obj → H.reserved (address obj) = 0

/-- What a party can do: nothing new, a reservation at the limit, or an entry under a fresh
handle. -/
inductive Moves (address : Obj → Nat) (H H' : Holdings Obj) : Prop where
  | stays (hwithin : Within H'.table H.table) (hlimit : H.limit ≤ H'.limit)
      (howners : ∀ r, H'.owners r ≤ H.owners r) (hreserved : ∀ n, H'.reserved n ≤ H.reserved n)
  | reserves (hwithin : Within H'.table H.table) (hlimit : H'.limit = H.limit + 1)
      (howners : ∀ r, H'.owners r ≤ H.owners r)
      (hreserved : ∀ n, H'.reserved n = H.reserved n + if n = H.limit then 1 else 0)
  | enters (num : Numbering) (obj : Obj) (r : Int)
      (hnew : RefTable.toRefNum num obj H.table = some (r, H'.table)) (hlimit : H.limit ≤ H'.limit)
      (howners : ∀ q, H'.owners q = H.owners q + if q = r then 1 else 0)
      (hreserved : ∀ n, H.reserved n = H'.reserved n + if n = address obj then 1 else 0)

variable {address : Obj → Nat} {H H' : Holdings Obj}

theorem separate_empty :
    (⟨RefTable.empty, 0, fun _ => 0, fun _ => 0⟩ : Holdings Obj).Separate address where
  exclusive _ := Nat.zero_le 1
  issued _ _ := rfl
  below _ _ h := nomatch h
  apart _ _ _ _ h := nomatch h
  once _ := Nat.zero_le 1
  free _ _ := rfl
  unused _ _ h := nomatch h

/-- An address with a reservation is below the limit, and there is no object at it. -/
theorem Separate.of_reserved (h : H.Separate address) {n : Nat} (hn : 0 < H.reserved n) :
    n < H.limit ∧ ∀ r obj, H.table.lookup r = some obj → address obj ≠ n := by
  refine ⟨?_, fun r obj hlookup hsame => ?_⟩
  · by_contra hge
    have := h.free n (by omega)
    omega
  · have := h.unused r obj hlookup
    rw [hsame] at this
    omega

/-- **Holdings stay separate, whatever the parties do.** -/
theorem Separate.moves (h : H.Separate address) (hmoves : Moves address H H') :
    H'.Separate address := by
  cases hmoves with
  | stays hwithin hlimit howners hreserved =>
      exact
        { exclusive := fun r => (howners r).trans (h.exclusive r)
          issued := fun r hr =>
            Nat.eq_zero_of_le_zero ((howners r).trans_eq (h.issued r (hwithin.issued ▸ hr)))
          below := fun r obj hr => (h.below r obj (hwithin.lookup r obj hr)).trans_le hlimit
          apart := fun r r' obj obj' hr hr' =>
            h.apart r r' obj obj' (hwithin.lookup r obj hr) (hwithin.lookup r' obj' hr')
          once := fun n => (hreserved n).trans (h.once n)
          free := fun n hn =>
            Nat.eq_zero_of_le_zero ((hreserved n).trans_eq (h.free n (hlimit.trans hn)))
          unused := fun r obj hr => Nat.eq_zero_of_le_zero
            ((hreserved _).trans_eq (h.unused r obj (hwithin.lookup r obj hr))) }
  | reserves hwithin hlimit howners hreserved =>
      refine
        { exclusive := fun r => (howners r).trans (h.exclusive r)
          issued := fun r hr =>
            Nat.eq_zero_of_le_zero ((howners r).trans_eq (h.issued r (hwithin.issued ▸ hr)))
          below := fun r obj hr => ?_
          apart := fun r r' obj obj' hr hr' =>
            h.apart r r' obj obj' (hwithin.lookup r obj hr) (hwithin.lookup r' obj' hr')
          once := fun n => ?_
          free := fun n hn => ?_
          unused := fun r obj hr => ?_ }
      · have := h.below r obj (hwithin.lookup r obj hr)
        omega
      · rw [hreserved]
        split
        · rw [h.free n (by omega)]
        · exact h.once n
      · rw [hreserved, h.free n (by omega), if_neg (by omega)]
      · have hlt := h.below r obj (hwithin.lookup r obj hr)
        rw [hreserved, h.unused r obj (hwithin.lookup r obj hr), if_neg (by omega)]
  | enters num obj r hnew hlimit howners hreserved =>
      obtain ⟨_, hfresh, _, hissued, hlookup, _⟩ := RefTable.toRefNum_spec hnew
      -- the address of the new object was reserved
      obtain ⟨hlt, hempty⟩ := h.of_reserved (n := address obj)
        (by rw [hreserved, if_pos rfl]; omega)
      have hcases : ∀ q obj', H'.table.lookup q = some obj' →
          q = r ∧ obj' = obj ∨ q ≠ r ∧ H.table.lookup q = some obj' := by
        intro q obj' hq
        rw [hlookup] at hq
        split at hq
        · exact .inl ⟨‹_›, (Option.some.inj hq).symm⟩
        · exact .inr ⟨‹_›, hq⟩
      refine
        { exclusive := fun q => ?_
          issued := fun q hq => ?_
          below := fun q obj' hq => ?_
          apart := fun q q' o o' hq hq' hsame => ?_
          once := fun n => (Nat.le_add_right _ _).trans ((hreserved n).symm.trans_le (h.once n))
          free := fun n hn => ?_
          unused := fun q obj' hq => ?_ }
      · rw [howners]
        split
        · rename_i hqr
          rw [hqr, h.issued r hfresh]
        · exact h.exclusive q
      · rw [hissued, List.mem_cons, not_or] at hq
        rw [howners, h.issued q hq.2, if_neg hq.1]
      · rcases hcases q obj' hq with ⟨_, rfl⟩ | ⟨_, hold⟩
        · omega
        · exact (h.below q obj' hold).trans_le hlimit
      · rcases hcases q o hq with ⟨rfl, rfl⟩ | ⟨_, hold⟩ <;>
          rcases hcases q' o' hq' with ⟨rfl, rfl⟩ | ⟨_, hold'⟩
        · rfl
        · exact absurd hsame.symm (hempty q' o' hold')
        · exact absurd hsame (hempty q o hold)
        · exact h.apart q q' o o' hold hold' hsame
      · have := hreserved n
        have := h.free n (hlimit.trans hn)
        omega
      · rcases hcases q obj' hq with ⟨_, rfl⟩ | ⟨_, hold⟩
        · have := hreserved (address obj')
          have := h.once (address obj')
          rw [if_pos rfl] at *
          omega
        · have := hreserved (address obj')
          have := h.unused q obj' hold
          omega

/-- A handle that has been issued does not get another owner. -/
theorem owners_le_of_moves (hmoves : Moves address H H') {r : Int} (hr : r ∈ H.table.issued) :
    r ∈ H'.table.issued ∧ H'.owners r ≤ H.owners r := by
  cases hmoves with
  | stays hwithin _ howners _ => exact ⟨hwithin.issued ▸ hr, howners r⟩
  | reserves hwithin _ howners _ => exact ⟨hwithin.issued ▸ hr, howners r⟩
  | enters num obj r' hnew _ howners _ =>
      obtain ⟨_, hfresh, _, hissued, _⟩ := RefTable.toRefNum_spec hnew
      refine ⟨hissued ▸ List.mem_cons_of_mem _ hr, ?_⟩
      rw [howners, if_neg fun heq : r = r' => hfresh (heq ▸ hr), Nat.add_zero]

end Holdings

end Foundation
