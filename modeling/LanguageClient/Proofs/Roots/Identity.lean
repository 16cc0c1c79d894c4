import LanguageClient.Proofs.Roots.Registry
import Mathlib.Data.List.DropRight
import Mathlib.Data.List.Find
import Mathlib.Data.List.Nodup

/-!
A root is told from others by its key, which has no slash at its end, and holds addresses by its folder,
which has one. Of addresses with no more than one slash at their end the two tell the same, and a root may
take the place of another with its key. Two slashes at the end are one folder deeper, with the same key.
-/

namespace LanguageClient

namespace Root

variable {r s : Root}

/-- The address without the slashes at its end. -/
def trimmed (r : Root) : List Char := Text.dropEndWhile (· = '/') r.uri.toList

theorem key_eq (r : Root) : r.key = if r.trimmed = [] then r.uri else String.ofList r.trimmed := by
  simp only [key, trimmed, List.isEmpty_iff]
  rfl

theorem exists_slashes (r : Root) : ∃ n, r.uri.toList = r.trimmed ++ List.replicate n '/' := by
  have slashes : ∀ c ∈ r.uri.toList.rtakeWhile (· = '/'), c = '/' := fun c hc => by
    simpa using List.mem_rtakeWhile_imp hc
  refine ⟨(r.uri.toList.rtakeWhile (· = '/')).length, ?_⟩
  rw [← List.eq_replicate_of_mem slashes]
  exact List.rdropWhile_append_rtakeWhile.symm

theorem getLast?_trimmed (r : Root) : r.trimmed.getLast? ≠ some '/' := by
  intro last
  obtain ⟨front, split⟩ := List.getLast?_eq_some_iff.1 last
  have some_ : r.uri.toList.rdropWhile (· = '/') ≠ [] := by
    show r.trimmed ≠ []
    simp [split]
  refine List.rdropWhile_last_not _ _ some_ ?_
  have here : (r.uri.toList.rdropWhile (· = '/')).getLast? = some '/' := last
  rw [List.getLast?_eq_getLast_of_ne_nil some_, Option.some.injEq] at here
  simpa using here

theorem trimmed_eq_self (h : r.uri.toList.getLast? ≠ some '/') : r.trimmed = r.uri.toList := by
  obtain ⟨n, slashes⟩ := r.exists_slashes
  cases n with
  | zero => rw [slashes, List.replicate_zero, List.append_nil]
  | succ n =>
    refine absurd ?_ h
    rw [slashes, List.replicate_succ', ← List.append_assoc, List.getLast?_concat]

theorem trimmed_folder (r : Root) : Text.dropEndWhile (· = '/') r.folder.toList = r.trimmed := by
  rw [folder, Uri.folder]
  split
  · rfl
  · rw [String.toList_append, show "/".toList = ['/'] by decide]
    exact List.rdropWhile_concat_pos _ _ _ (by simp)

/-- Roots of one folder have one key, but for an address that is empty. -/
theorem key_of_folder (h : r.uri ≠ "") (h' : s.uri ≠ "") (same : r.folder = s.folder) :
    r.key = s.key := by
  have trimmed : r.trimmed = s.trimmed := by rw [← trimmed_folder, ← trimmed_folder, same]
  rw [key_eq, key_eq, trimmed]
  split
  · rename_i empty
    -- of slashes alone, an address is its folder
    have whole {r : Root} (h : r.uri ≠ "") (empty : r.trimmed = []) : r.folder = r.uri := by
      obtain ⟨n, slashes⟩ := r.exists_slashes
      rw [empty, List.nil_append] at slashes
      have some_ : n ≠ 0 := fun zero => h (String.toList_eq_nil_iff.1 (by rw [slashes, zero]; rfl))
      refine if_pos ?_
      rw [slashes, List.getLast?_replicate, if_neg some_]
    rw [← whole h (trimmed.trans empty), ← whole h' empty, same]
  · rfl

/-- What ends with no more than one slash has the folder of what is left without it. -/
theorem folder_of_single (single : ¬ "//".toList <:+ r.uri.toList) :
    r.folder.toList = r.trimmed ++ ['/'] := by
  obtain ⟨n, slashes⟩ := r.exists_slashes
  rw [folder, Uri.folder]
  rcases n with _ | _ | n
  · rw [List.replicate_zero, List.append_nil] at slashes
    rw [if_neg (slashes ▸ r.getLast?_trimmed), String.toList_append, slashes]
    rfl
  · rw [if_pos (by rw [slashes]; simp), slashes]
    rfl
  · refine absurd ⟨r.trimmed ++ List.replicate n '/', ?_⟩ single
    rw [slashes, List.append_assoc, show "//".toList = List.replicate 2 '/' by decide,
      List.replicate_append_replicate]

theorem trimmed_of_key (same : r.key = s.key) : r.trimmed = s.trimmed := by
  -- an address of slashes alone is a key of its own
  have apart {r s : Root} (empty : r.trimmed = []) (some_ : s.trimmed ≠ []) : r.key ≠ s.key := by
    intro same
    obtain ⟨n, slashes⟩ := r.exists_slashes
    rw [key_eq, key_eq, if_pos empty, if_neg some_, ← String.toList_inj, String.toList_ofList,
      slashes, empty, List.nil_append] at same
    have last := s.getLast?_trimmed
    rw [← same, List.getLast?_replicate] at last
    by_cases zero : n = 0
    · exact some_ (by rw [← same, zero]; rfl)
    · exact last (if_neg zero)
  by_cases empty : r.trimmed = [] <;> by_cases empty' : s.trimmed = []
  · rw [empty, empty']
  · exact absurd same (apart empty empty')
  · exact absurd same.symm (apart empty' empty)
  · rw [key_eq, key_eq, if_neg empty, if_neg empty'] at same
    exact String.ofList_injective same

theorem folder_of_key (single : ¬ "//".toList <:+ r.uri.toList) (single' : ¬ "//".toList <:+ s.uri.toList)
    (same : r.key = s.key) : r.folder = s.folder := by
  rw [← String.toList_inj, folder_of_single single, folder_of_single single', trimmed_of_key same]

end Root

namespace Resolver

variable {res : Resolver} {a b r : Root}

/-- A root, or the one that takes its place. -/
def exchange (b r : Root) : Root := if r.key = b.key then b else r

theorem key_exchange (b r : Root) : (exchange b r).key = r.key := by
  unfold exchange
  split
  · rename_i same
    exact same.symm
  · rfl

section

variable (regular : res.Regular) (registered : a ∈ res.roots) (key : a.key = b.key)
  (folder : a.folder = b.folder)

include regular registered key folder

theorem folder_exchange (h : r ∈ res.roots) : (exchange b r).folder = r.folder := by
  unfold exchange
  split
  · rename_i same
    rw [← folder, List.inj_on_of_nodup_map regular.keys h registered (same.trans key.symm)]
  · rfl

/-- A root with the key and the folder of another stands where that stood. -/
theorem sorted_add : (res.add b).sorted = res.sorted.map (exchange b) := by
  have length (r : Root) (hr : r ∈ res.roots) : (exchange b r).folder.length = r.folder.length :=
    congrArg String.length (folder_exchange regular registered key folder hr)
  show (put b res.roots).mergeSort shorter = _
  rw [put_eq_map registered key regular.keys, regular.current]
  refine (List.map_mergeSort (f := exchange b) fun r hr s hs => ?_).symm
  rw [shorter, shorter, length r hr, length s hs]

theorem innermost?_add (uri : String) :
    (res.add b).innermost? uri = (res.innermost? uri).map (exchange b) := by
  have same : res.sorted.filter ((holds · uri) ∘ exchange b) = res.sorted.filter (holds · uri) := by
    refine List.filter_congr fun r hr => ?_
    simp only [Function.comp, holds,
      folder_exchange regular registered key folder (regular.current.mem_sorted.1 hr)]
  rw [innermost?, sorted_add regular registered key folder, List.filter_map, same, List.getLast?_map]
  rfl

theorem outermost_add (h : r ∈ res.roots) :
    (res.add b).outermost (exchange b r) = exchange b (res.outermost r) := by
  have same : res.sorted.find? ((fun s => s.folder.toList.isPrefixOf r.folder.toList) ∘ exchange b) =
      res.sorted.find? fun s => s.folder.toList.isPrefixOf r.folder.toList := by
    refine List.find?_congr fun s hs => ?_
    simp only [Function.comp,
      folder_exchange regular registered key folder (regular.current.mem_sorted.1 hs)]
  rw [outermost, sorted_add regular registered key folder, List.find?_map,
    folder_exchange regular registered key folder h, same, outermost]
  cases res.sorted.find? fun s => s.folder.toList.isPrefixOf r.folder.toList <;> rfl

end

/-- A root takes the place of one with its key, and no document goes to a root of another key or to none
for that, as long as neither address ends with two slashes. -/
theorem answers_add (regular : res.Regular) (registered : a ∈ res.roots) (same : a.key = b.key)
    (single : ¬ "//".toList <:+ a.uri.toList) (single' : ¬ "//".toList <:+ b.uri.toList)
    (document : String) :
    ((res.add b).containing? document).map (Option.map Root.key) =
        (res.containing? document).map (Option.map Root.key) ∧
      ((res.add b).resolve? document).map (Option.map Root.key) =
        (res.resolve? document).map (Option.map Root.key) := by
  have folder := Root.folder_of_key single single' same
  have keys (r? : Option Root) : (r?.map (exchange b)).map Root.key = r?.map Root.key := by
    cases r? with
    | none => rfl
    | some r => exact congrArg some (key_exchange b r)
  unfold resolve? containing?
  cases Uri.ofText document with
  | error e => exact ⟨rfl, rfl⟩
  | ok uri =>
    simp only [Except.map, innermost?_add regular registered same folder, keys, Except.ok.injEq, true_and]
    cases found : res.innermost? uri with
    | none => rfl
    | some r =>
      have member : r ∈ res.roots :=
        regular.current.mem_sorted.1 (List.mem_filter.1 (List.mem_of_getLast? found)).1
      simp only [Option.map_some, outermost_add regular registered same folder member, key_exchange]

/-- A second slash at the end leaves the key as it is, but the folder holds nothing of the first one. -/
example : let res := ofRoots [⟨"file:///proj", ""⟩]
    let b : Root := ⟨"file:///proj//", ""⟩
    (res.containing? "file:///proj/x.lua").map (Option.map Root.key) = .ok (some b.key) ∧
      (res.add b).containing? "file:///proj/x.lua" = .ok none := by decide +kernel

end Resolver
end LanguageClient
