import Mathlib.Data.List.Nodup
import Mathlib.Data.List.Perm.Subperm

/-!
# Logs and their readers

Several sources append messages to logs of their own; a place is a source and an index in its log.
A reader that is handed no place twice is handed no more messages of a kind than were posted
(`handed_le_posted`), and as many once it has been handed all of them (`posted_le_handed`).
-/

namespace InvoiceHub.Effects

variable {ι α : Type} {sources : List ι} {log log' : ι → List α} {places : List (ι × Nat)}
  {p : α → Bool}

/-- How many messages with the property the sources have posted. -/
def posted (sources : List ι) (log : ι → List α) (p : α → Bool) : Nat :=
  (sources.flatMap log).countP p

/-- How many of the places hold a message with the property. -/
def handed (log : ι → List α) (places : List (ι × Nat)) (p : α → Bool) : Nat :=
  places.countP fun place => (log place.1)[place.2]?.any p

/-- The places that hold a message with the property. -/
def postings (sources : List ι) (log : ι → List α) (p : α → Bool) : List (ι × Nat) :=
  sources.flatMap fun source =>
    ((log source).zipIdx.filter fun x => p x.1).map fun x => (source, x.2)

theorem length_postings : (postings sources log p).length = posted sources log p := by
  have hcount : ∀ l : List α, (l.zipIdx.filter fun x => p x.1).length = l.countP p := by
    intro l
    conv_rhs => rw [← List.zipIdx_map_fst 0 l, List.countP_map]
    exact (List.countP_eq_length_filter ..).symm
  simp only [postings, posted, List.length_flatMap, List.countP_flatMap, List.length_map, hcount,
    Function.comp_def]

theorem mem_postings {place : ι × Nat} : place ∈ postings sources log p ↔
    place.1 ∈ sources ∧ (log place.1)[place.2]?.any p = true := by
  obtain ⟨source, index⟩ := place
  simp only [postings, List.mem_flatMap, List.mem_map, List.mem_filter, Prod.exists, Prod.mk.injEq,
    Option.any_eq_true, List.mk_mem_zipIdx_iff_getElem?]
  constructor
  · rintro ⟨_, hsource, message, _, ⟨hget, hp⟩, rfl, rfl⟩
    exact ⟨hsource, message, hget, hp⟩
  · rintro ⟨hsource, message, hget, hp⟩
    exact ⟨source, hsource, message, index, ⟨hget, hp⟩, rfl, rfl⟩

theorem nodup_postings (hs : sources.Nodup) : (postings sources log p).Nodup := by
  refine List.nodup_flatMap.mpr ⟨fun source _ => ?_, ?_⟩
  · have hindices : ((log source).zipIdx.map Prod.snd).Nodup := by
      rw [List.zipIdx_map_snd]
      exact List.nodup_range'
    refine (List.Nodup.of_map _ hindices).filter _ |>.map_on ?_
    intro x hx y hy heq
    have hget := List.mk_mem_zipIdx_iff_getElem?.mp (List.mem_filter.mp hx).1
    have hget' := List.mk_mem_zipIdx_iff_getElem?.mp (List.mem_filter.mp hy).1
    have hindex : x.2 = y.2 := (Prod.mk.inj heq).2
    rw [hindex, hget'] at hget
    exact Prod.ext (Option.some_inj.mp hget).symm hindex
  · refine hs.imp fun {a b} hne place ha hb => ?_
    obtain ⟨x, -, rfl⟩ := List.mem_map.mp ha
    obtain ⟨y, -, heq⟩ := List.mem_map.mp hb
    exact hne (congrArg Prod.fst heq).symm

/-! ## What is handed out -/

theorem handed_subset (hsources : ∀ source, source ∈ sources) :
    (places.filter fun place => (log place.1)[place.2]?.any p) ⊆ postings sources log p :=
  fun _ hmem => mem_postings.mpr ⟨hsources _, (List.mem_filter.mp hmem).2⟩

/-- Where no place is handed out twice, no more messages are handed out than were posted. -/
theorem handed_le_posted (hsources : ∀ source, source ∈ sources) (hn : places.Nodup) :
    handed log places p ≤ posted sources log p := by
  rw [handed, List.countP_eq_length_filter, ← length_postings]
  exact ((hn.filter _).subperm (handed_subset hsources)).length_le

/-- As long as one of them has not been handed out, they are fewer. -/
theorem handed_lt_posted (hsources : ∀ source, source ∈ sources) (hn : places.Nodup)
    {place : ι × Nat} (hnew : place ∉ places) (hp : (log place.1)[place.2]?.any p = true) :
    handed log places p < posted sources log p := by
  have hmore : handed log (place :: places) p ≤ posted sources log p :=
    handed_le_posted hsources (hn.cons hnew)
  rw [handed, List.countP_cons_of_pos (by exact hp)] at hmore
  exact hmore

/-- Where all of them have been handed out, they are as many. -/
theorem posted_le_handed (hs : sources.Nodup)
    (hall : ∀ place, (log place.1)[place.2]?.any p = true → place ∈ places) :
    posted sources log p ≤ handed log places p := by
  rw [handed, List.countP_eq_length_filter, ← length_postings]
  refine ((nodup_postings hs).subperm fun place hmem => ?_).length_le
  have hp := (mem_postings.mp hmem).2
  exact List.mem_filter.mpr ⟨hall place hp, hp⟩

/-- What is posted later does not change what was handed out. -/
theorem handed_grows (hvalid : ∀ place ∈ places, place.2 < (log place.1).length)
    (hgrows : ∀ source, log source <+: log' source) :
    handed log' places p = handed log places p := by
  refine List.countP_congr fun place hmem => ?_
  obtain ⟨added, hadded⟩ := hgrows place.1
  rw [← hadded, List.getElem?_append_left (hvalid place hmem)]

end InvoiceHub.Effects
