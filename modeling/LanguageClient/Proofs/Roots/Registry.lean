import LanguageClient.Resolver
import Mathlib.Data.List.Basic

/-!
The registry of roots: each key once, and an order by the length of the folders that is remembered until
the roots change.
-/

namespace LanguageClient

namespace Resolver

theorem mem_put {r x : Root} {roots : List Root} (h : (roots.map Root.key).Nodup) :
    r ∈ put x roots ↔ r = x ∨ (r ∈ roots ∧ r.key ≠ x.key) := by
  induction roots with
  | nil => simp [put]
  | cons y rest ih =>
    obtain ⟨fresh, h⟩ := List.nodup_cons.1 h
    have apart (s : Root) (hs : s ∈ rest) : s.key ≠ y.key :=
      fun same => fresh (same ▸ List.mem_map_of_mem hs)
    rw [put]
    split
    · rename_i same
      grind
    · rename_i other
      rw [List.mem_cons, ih h]
      grind

theorem keys_put {x : Root} {roots : List Root} (h : (roots.map Root.key).Nodup) :
    ((put x roots).map Root.key).Nodup := by
  induction roots with
  | nil => simp [put]
  | cons y rest ih =>
    obtain ⟨fresh, rest_⟩ := List.nodup_cons.1 h
    rw [put]
    split
    · rename_i same
      rwa [List.map_cons, ← same]
    · rename_i other
      refine List.nodup_cons.2 ⟨fun found => ?_, ih rest_⟩
      obtain ⟨s, hs, same⟩ := List.mem_map.1 found
      rcases (mem_put rest_).1 hs with rfl | ⟨hs, -⟩
      · exact other same.symm
      · exact fresh (same ▸ List.mem_map_of_mem hs)

/-- A root that takes the place of one with its key stands where that stood. -/
theorem put_eq_map {x r : Root} {roots : List Root} (registered : r ∈ roots) (same : r.key = x.key)
    (h : (roots.map Root.key).Nodup) :
    put x roots = roots.map fun s => if s.key = x.key then x else s := by
  induction roots with
  | nil => cases registered
  | cons y rest ih =>
    obtain ⟨fresh, h⟩ := List.nodup_cons.1 h
    rw [put, List.map_cons]
    split
    · rename_i here
      have others : (rest.map fun s => if s.key = x.key then x else s) = rest.map id := by
        refine List.map_congr_left fun s hs => if_neg fun twin => fresh ?_
        exact (twin.trans here.symm) ▸ List.mem_map_of_mem hs
      rw [others, List.map_id]
    · rename_i other
      rw [ih ((List.mem_cons.1 registered).resolve_left fun first => other (first ▸ same)) h]

theorem outermost_congr {res res' : Resolver} (h : res.sorted = res'.sorted) (r : Root) :
    res.outermost r = res'.outermost r := by
  rw [outermost, outermost, h]

theorem resolve?_congr {res res' : Resolver} (h : res.sorted = res'.sorted) (document : String) :
    res.resolve? document = res'.resolve? document := by
  simp only [resolve?, containing?, innermost?, funext (outermost_congr h), h]

/-- The order of the roots that is remembered is theirs. -/
def Current (res : Resolver) : Prop := res.sorted = res.roots.mergeSort shorter

theorem current_of_none {res : Resolver} (h : res.sorted? = none) : res.Current := by
  rw [Current, sorted, h]
  rfl

namespace Current

variable {res : Resolver} (h : res.Current)

include h

theorem remember : res.remember.Current := by
  rw [Current, sorted_remember]
  exact h

theorem remove (root : Root) : (res.remove root).Current := by
  unfold Resolver.remove
  split
  · exact current_of_none rfl
  · exact h

theorem adds (roots : List Root) : (roots.foldl (fun res root => res.add root) res).Current := by
  induction roots generalizing res with
  | nil => exact h
  | cons root rest ih => exact ih (current_of_none rfl)

theorem resolve? (uri : String) : res.resolve? uri = Resolver.resolve? uri ⟨res.roots, none⟩ := by
  have same : res.sorted = (⟨res.roots, none⟩ : Resolver).sorted := h
  exact resolve?_congr same uri

theorem sorted_eq {res' : Resolver} (h' : res'.Current) (same : res.roots = res'.roots) :
    res.sorted = res'.sorted := by rw [h, h', same]

theorem mem_sorted {r : Root} : r ∈ res.sorted ↔ r ∈ res.roots := by rw [h, List.mem_mergeSort]

theorem pairwise_sorted : res.sorted.Pairwise fun r s => r.folder.length ≤ s.folder.length := by
  rw [h]
  have sorted : (res.roots.mergeSort shorter).Pairwise fun r s => shorter r s := by
    refine List.pairwise_mergeSort ?_ ?_ _
    · simp only [shorter, decide_eq_true_eq]
      exact fun _ _ _ => Nat.le_trans
    · simp only [shorter, Bool.or_eq_true, decide_eq_true_eq]
      exact fun _ _ => Nat.le_total _ _
  exact sorted.imp fun le => by simpa [shorter] using le

end Current

/-- Each key stands in the registry once, and the remembered order is that of the roots. -/
structure Regular (res : Resolver) : Prop where
  keys : (res.roots.map Root.key).Nodup
  current : res.Current

namespace Regular

variable {res : Resolver}

theorem add (h : res.Regular) (root : Root) : (res.add root).Regular :=
  ⟨keys_put h.keys, current_of_none rfl⟩

theorem adds (h : res.Regular) (roots : List Root) :
    (roots.foldl (fun res root => res.add root) res).Regular := by
  induction roots generalizing res with
  | nil => exact h
  | cons root rest ih => exact ih (h.add root)

theorem remove (h : res.Regular) (root : Root) : (res.remove root).Regular := by
  refine ⟨?_, h.current.remove root⟩
  unfold Resolver.remove
  split
  · exact h.keys.sublist (List.filter_sublist.map _)
  · exact h.keys

theorem remember (h : res.Regular) : res.remember.Regular := ⟨h.keys, h.current.remember⟩

theorem ofRoots (roots : List Root) : (Resolver.ofRoots roots).Regular := by
  refine ⟨?_, current_of_none rfl⟩
  have grown (done : List Root) (h : (done.map Root.key).Nodup) :
      ((roots.foldl (fun done r => put r done) done).map Root.key).Nodup := by
    induction roots generalizing done with
    | nil => exact h
    | cons r rest ih => exact ih _ (keys_put h)
  exact grown [] List.nodup_nil

theorem sorted_keys (h : res.Regular) : (res.sorted.map Root.key).Nodup := by
  rw [h.current]
  exact ((List.mergeSort_perm res.roots shorter).map Root.key).nodup_iff.2 h.keys

end Regular

end Resolver
end LanguageClient
