import AgentForge.Ranking
import Mathlib.Data.List.AList

/-! Listings of the values of a map. If every value is changed in a way that neither the
filter nor the order of a listing can see, the listing has the changed values in the places
of the old ones, wherever it is cut off. -/
namespace MapListings

open Ranking (Separates)

variable {κ α : Type} [DecidableEq κ] {map map' : AList fun _ : κ => α} {change : α → α}
  {keep : α → Bool} {r : α → α → Prop} [DecidableRel r]

/-- The values of the map. -/
def values (map : AList fun _ : κ => α) : List α := map.entries.map Sigma.snd

theorem mem_listing {a : α} :
    a ∈ (values map).filter keep ↔ (∃ key, map.lookup key = some a) ∧ keep a = true := by
  rw [List.mem_filter, values, List.mem_map]
  refine and_congr_left fun _ => ⟨?_, ?_⟩
  · rintro ⟨⟨key, a⟩, entry, rfl⟩
    exact ⟨key, AList.mem_lookup_iff.mpr entry⟩
  · rintro ⟨key, found⟩
    exact ⟨⟨key, a⟩, AList.mem_lookup_iff.mp found, rfl⟩

/-- Values that tell their keys tell different ones. -/
theorem nodup_names {name : α → κ} (named : ∀ key a, map.lookup key = some a → name a = key) :
    ((values map).map name).Nodup := by
  have keys : (values map).map name = map.entries.keys := by
    rw [values, List.map_map, List.keys]
    refine List.map_congr_left fun entry member => ?_
    exact named entry.1 entry.2 (AList.mem_lookup_iff.mpr member)
  rw [keys]
  exact map.nodupKeys

/-- Changing what is found under every key changes every value. -/
theorem values_perm (changed : ∀ key, map'.lookup key = (map.lookup key).map change) :
    (values map').Perm ((values map).map change) := by
  let moved : List (Sigma fun _ : κ => α) := map.entries.map (.map id fun _ => change)
  have distinct : moved.NodupKeys := by
    rw [List.NodupKeys, List.map₂_keys]
    exact map.nodupKeys
  have perm : map'.entries.Perm moved := by
    refine List.lookup_ext map'.nodupKeys distinct fun key value => ?_
    have found : moved.dlookup key = (map.entries.dlookup key).map change := List.dlookup_map₂ key
    have found' : map'.entries.dlookup key = (map.entries.dlookup key).map change := changed key
    rw [found, found']
  have mapped : moved.map Sigma.snd = (values map).map change := by
    rw [values, List.map_map, List.map_map]
    exact List.map_congr_left fun _ _ => rfl
  rw [← mapped]
  exact perm.map _

/-- Sorted lists of the same elements are the same list. -/
theorem insertionSort_eq_map {l l' : List α} (perm : l'.Perm (l.map change))
    (total : Std.Total r) (trans : IsTrans α r) (separates : Separates r l')
    (orders : ∀ a ∈ l, ∀ b ∈ l, r a b → r (change a) (change b)) :
    l'.insertionSort r = (l.insertionSort r).map change := by
  have sorted := List.pairwise_insertionSort r l
  have moved : ((l.insertionSort r).map change).Pairwise r := by
    rw [List.pairwise_map]
    refine sorted.imp_of_mem fun {a b} first second before => ?_
    exact orders a ((List.mem_insertionSort r).mp first) b ((List.mem_insertionSort r).mp second)
      before
  have same : (l'.insertionSort r).Perm ((l.insertionSort r).map change) :=
    (List.perm_insertionSort r l').trans (perm.trans ((List.perm_insertionSort r l).map _).symm)
  refine same.eq_of_pairwise (fun a b first second before after => ?_)
    (List.pairwise_insertionSort r l') moved
  exact separates a ((List.mem_insertionSort r).mp first) b
    ((List.mem_insertionSort r).mp (same.mem_iff.mpr second)) before after

/-- The listing of the values that are kept. -/
theorem listing_map (changed : ∀ key, map'.lookup key = (map.lookup key).map change)
    (total : Std.Total r) (trans : IsTrans α r)
    (separates : Separates r ((values map').filter keep))
    (kept : ∀ a ∈ values map, keep (change a) = keep a)
    (orders : ∀ a ∈ values map, ∀ b ∈ values map, r a b → r (change a) (change b)) :
    ((values map').filter keep).insertionSort r =
      (((values map).filter keep).insertionSort r).map change := by
  have unseen : ((values map).map change).filter keep = ((values map).filter keep).map change := by
    rw [List.filter_map]
    congr 1
    exact List.filter_congr kept
  refine insertionSort_eq_map ?_ total trans separates fun a inside b inside' => ?_
  · rw [← unseen]
    exact (values_perm changed).filter _
  · exact orders a (List.mem_of_mem_filter inside) b (List.mem_of_mem_filter inside')

end MapListings
