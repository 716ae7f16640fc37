/-
# A ledger of heap objects

`Heap κ` records the objects a program holds: each allocation attempt has a
number, which names the object if the attempt succeeds, and each release is
noted under that name. Which attempts succeed is the caller's choice of
`grants`, a predicate on the heap and the requested bytes.

`Owns h L` says that the live objects are exactly `L` and that nothing was
released twice or without being live. It is preserved by allocation, with the
new object added (`Owns.alloc`), and by releasing an object of `L`, with that
object removed (`Owns.release`), so the specification of a function is the
change it makes to `L`, whatever else is live.
-/
import WebPlugin.Words

namespace Ledger

/-- A live object: its name, kind and size in bytes. -/
structure Block (κ : Type*) where
  id : ℕ
  kind : κ
  bytes : ℕ
  deriving DecidableEq, Repr

/-- The live objects, the names released so far, and the number of allocation
attempts. -/
structure Heap (κ : Type*) where
  attempts : ℕ
  live : List (Block κ)
  released : List ℕ

namespace Heap

variable {κ : Type*}

/-- Nothing allocated yet. -/
def empty : Heap κ := ⟨0, [], []⟩

/-- An attempt to allocate: the object's name, or nothing. -/
def alloc (grants : Heap κ → ℕ → Bool) (k : κ) (n : ℕ) (h : Heap κ) : Option ℕ × Heap κ :=
  if grants h n then
    (some h.attempts, { h with attempts := h.attempts + 1, live := ⟨h.attempts, k, n⟩ :: h.live })
  else (none, { h with attempts := h.attempts + 1 })

/-- The heap after a request that is granted. -/
def grown (k : κ) (n : ℕ) (h : Heap κ) : Heap κ :=
  { h with attempts := h.attempts + 1, live := ⟨h.attempts, k, n⟩ :: h.live }

/-- The bytes of the live objects. -/
def bytes (h : Heap κ) : ℕ := (h.live.map Block.bytes).sum

theorem bytes_grown (k : κ) (n : ℕ) (h : Heap κ) : (h.grown k n).bytes = n + h.bytes := by
  rw [bytes, grown, List.map_cons, List.sum_cons, bytes]

/-- Release the object of this name. -/
def release (i : ℕ) (h : Heap κ) : Heap κ :=
  { h with live := h.live.filter (·.id ≠ i), released := i :: h.released }

/-- Releasing a null pointer does nothing. -/
def release? : Option ℕ → Heap κ → Heap κ
  | none, h => h
  | some i, h => h.release i

theorem alloc_granted {grants : Heap κ → ℕ → Bool} {k : κ} {n : ℕ} {h : Heap κ} (hg : grants h n = true) :
    h.alloc grants k n = (some h.attempts, h.grown k n) := by
  rw [alloc, if_pos hg, grown]

/-- A request that succeeds has been granted. -/
theorem of_alloc_some {grants : Heap κ → ℕ → Bool} {k : κ} {n i : ℕ} {h h' : Heap κ}
    (ha : h.alloc grants k n = (some i, h')) : grants h n = true ∧ h' = h.grown k n := by
  unfold alloc at ha
  split_ifs at ha with hg
  · exact ⟨hg, (Prod.mk.inj ha).2.symm⟩
  · cases ha

/-- A request that fails has been refused. -/
theorem of_alloc_none {grants : Heap κ → ℕ → Bool} {k : κ} {n : ℕ} {h h' : Heap κ}
    (ha : h.alloc grants k n = (none, h')) : grants h n = false := by
  unfold alloc at ha
  split_ifs at ha with hg
  · cases ha
  · exact eq_false_of_ne_true hg

end Heap

variable {κ : Type*}

/-- The live objects are `L`; each was allocated once, and nothing was released
twice or while not live. -/
structure Owns (h : Heap κ) (L : List (Block κ)) : Prop where
  live : h.live.Perm L
  nodup : (L.map Block.id).Nodup
  once : h.released.Nodup
  fresh : ∀ b ∈ L, b.id < h.attempts ∧ b.id ∉ h.released
  past : ∀ i ∈ h.released, i < h.attempts

namespace Owns

theorem empty : Owns (Heap.empty : Heap κ) [] :=
  ⟨List.Perm.refl _, List.nodup_nil, List.nodup_nil, by simp, by simp [Heap.empty]⟩

theorem perm {h : Heap κ} {L L' : List (Block κ)} (hp : L.Perm L') (ho : Owns h L) : Owns h L' where
  live := ho.live.trans hp
  nodup := (hp.map _).nodup_iff.mp ho.nodup
  once := ho.once
  fresh b hb := ho.fresh b (hp.mem_iff.mpr hb)
  past := ho.past

variable {grants : Heap κ → ℕ → Bool} {k : κ} {n : ℕ} {h h' : Heap κ} {L : List (Block κ)}

/-- A failed attempt changes nothing that is owned. -/
theorem alloc_none (ho : Owns h L) (ha : h.alloc grants k n = (none, h')) : Owns h' L := by
  unfold Heap.alloc at ha
  split at ha
  · cases ha
  · cases ha
    exact ⟨ho.live, ho.nodup, ho.once,
      fun b hb => ⟨Nat.lt_succ_of_lt (ho.fresh b hb).1, (ho.fresh b hb).2⟩,
      fun i hi => Nat.lt_succ_of_lt (ho.past i hi)⟩

/-- A successful attempt adds the new object. -/
theorem alloc_some {i : ℕ} (ho : Owns h L) (ha : h.alloc grants k n = (some i, h')) :
    Owns h' (⟨i, k, n⟩ :: L) := by
  unfold Heap.alloc at ha
  split at ha
  · cases ha
    have hnew : ∀ b ∈ L, b.id ≠ h.attempts := fun b hb => (ho.fresh b hb).1.ne
    refine ⟨ho.live.cons _, ?_, ho.once, ?_, fun i hi => Nat.lt_succ_of_lt (ho.past i hi)⟩
    · refine List.nodup_cons.mpr ⟨fun hm => ?_, ho.nodup⟩
      obtain ⟨b, hb, he⟩ := List.mem_map.mp hm
      exact hnew b hb he
    · intro b hb
      rcases List.mem_cons.mp hb with rfl | hb
      · exact ⟨Nat.lt_succ_self _, fun hm => (ho.past _ hm).false⟩
      · exact ⟨Nat.lt_succ_of_lt (ho.fresh b hb).1, (ho.fresh b hb).2⟩
  · cases ha

/-- Releasing an owned object removes it. -/
theorem release {b : Block κ} (ho : Owns h (b :: L)) : Owns (h.release b.id) L := by
  obtain ⟨hb, hL⟩ := List.nodup_cons.mp ho.nodup
  have hne : ∀ c ∈ L, c.id ≠ b.id := fun c hc he => hb (he ▸ List.mem_map_of_mem hc)
  have hfil : (b :: L).filter (fun c => decide (c.id ≠ b.id)) = L := by
    rw [List.filter_cons_of_neg (by simp)]
    exact List.filter_eq_self.mpr fun c hc => by simpa using hne c hc
  refine ⟨?_, hL, ?_, ?_, ?_⟩
  · have := ho.live.filter (fun c => decide (c.id ≠ b.id))
    rwa [hfil] at this
  · exact List.nodup_cons.mpr ⟨(ho.fresh b List.mem_cons_self).2, ho.once⟩
  · intro c hc
    obtain ⟨h1, h2⟩ := ho.fresh c (List.mem_cons_of_mem _ hc)
    exact ⟨h1, fun hm => (List.mem_cons.mp hm).elim (hne c hc) h2⟩
  · intro i hi
    rcases List.mem_cons.mp hi with rfl | hi
    · exact (ho.fresh b List.mem_cons_self).1
    · exact ho.past i hi

end Owns

/-- What is owned stays so. -/
def Heap.Keeps (h h' : Heap κ) : Prop := ∀ L, Owns h L → Owns h' L

namespace Heap.Keeps

variable {grants : Heap κ → ℕ → Bool} {k : κ} {n : ℕ} {h h' h'' : Heap κ}

theorem refl (h : Heap κ) : h.Keeps h := fun _ ho => ho

theorem of_refused (ha : h.alloc grants k n = (none, h')) : h.Keeps h' := fun _ ho => ho.alloc_none ha

/-- What was allocated is released. -/
theorem of_granted {i : ℕ} (ha : h.alloc grants k n = (some i, h')) : h.Keeps (h'.release i) :=
  fun _ ho => (ho.alloc_some ha).release

end Heap.Keeps

/-! ### Objects by name and kind -/

/-- The live objects are those named, of these kinds; each was allocated once,
and nothing was released twice or while not live. -/
def Holds (h : Heap κ) (O : List (ℕ × κ)) : Prop :=
  ∃ L, Owns h L ∧ (L.map fun b => (b.id, b.kind)).Perm O

namespace Holds

variable {grants : Heap κ → ℕ → Bool} {k : κ} {n i : ℕ} {h h' : Heap κ} {O O' : List (ℕ × κ)}

theorem empty : Holds (Heap.empty : Heap κ) [] := ⟨[], .empty, .refl _⟩

theorem perm (hh : Holds h O) (hp : O.Perm O') : Holds h O' := by
  obtain ⟨L, ho, hL⟩ := hh
  exact ⟨L, ho, hL.trans hp⟩

theorem keeps (hh : Holds h O) (hk : h.Keeps h') : Holds h' O := by
  obtain ⟨L, ho, hL⟩ := hh
  exact ⟨L, hk L ho, hL⟩

theorem alloc_none (hh : Holds h O) (ha : h.alloc grants k n = (none, h')) : Holds h' O :=
  hh.keeps (.of_refused ha)

theorem alloc_some (hh : Holds h O) (ha : h.alloc grants k n = (some i, h')) : Holds h' ((i, k) :: O) := by
  obtain ⟨L, ho, hL⟩ := hh
  exact ⟨⟨i, k, n⟩ :: L, ho.alloc_some ha, hL.cons _⟩

theorem release (hh : Holds h ((i, k) :: O)) : Holds (h.release i) O := by
  obtain ⟨L, ho, hL⟩ := hh
  obtain ⟨b, hb, he⟩ : ∃ b ∈ L, (b.id, b.kind) = (i, k) := List.mem_map.mp (hL.mem_iff.mpr List.mem_cons_self)
  obtain ⟨L', hL'⟩ := List.mem_iff_append.mp hb
  obtain ⟨L'', rfl⟩ := hL'
  have hp : (L' ++ b :: L'').Perm (b :: (L' ++ L'')) := List.perm_middle
  have hrest := (hp.map fun b => (b.id, b.kind)).symm.trans hL
  rw [List.map_cons, he] at hrest
  obtain ⟨rfl, -⟩ := Prod.mk.inj he
  exact ⟨L' ++ L'', (ho.perm hp).release, (List.perm_cons _).mp hrest⟩

/-- A pointer that may be null. -/
theorem release? {o : Option ℕ} (hh : Holds h (o.toList.map (·, k) ++ O)) : Holds (h.release? o) O := by
  cases o with
  | none => exact hh
  | some i => exact hh.release

/-- The names are distinct. -/
theorem nodup (hh : Holds h O) : (O.map Prod.fst).Nodup := by
  obtain ⟨L, ho, hL⟩ := hh
  have hp := hL.map Prod.fst
  rw [List.map_map] at hp
  exact hp.nodup_iff.mp ho.nodup

end Holds

end Ledger
