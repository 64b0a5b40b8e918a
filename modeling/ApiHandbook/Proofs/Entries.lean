import ApiHandbook.Entries
import Mathlib.Data.List.Induction
import Mathlib.Data.List.Nodup

/-! Lists in which each key has one entry, as folds build them: keys stand in the order in which they first open an
entry, and the entry of a key is what the items of that key alone make of it. -/
namespace ApiHandbook

section Lookup
variable {α : Type}

theorem lookup_cons_eq (key : String) (value : α) (entries : List (String × α)) (k : String) :
    ((key, value) :: entries).lookup k = if k = key then some value else entries.lookup k := by
  rw [List.lookup_cons]
  by_cases h : k = key
  · rw [if_pos h, beq_iff_eq.mpr h]
  · rw [if_neg h, beq_eq_false_iff_ne.mpr h]

theorem lookup_insertNew (key : String) (value : α) (entries : List (String × α)) (k : String) :
    (insertNew key value entries).lookup k = (entries.lookup k).or (if k = key then some value else none) := by
  rw [insertNew]
  split
  · rename_i h
    by_cases hk : k = key
    · obtain ⟨v, hv⟩ := Option.isSome_iff_exists.mp (hk ▸ h)
      rw [hv, Option.some_or]
    · rw [if_neg hk, Option.or_none]
  · rw [List.lookup_append, lookup_cons_eq, List.lookup_nil]

theorem lookup_put (key : String) (value : α) (entries : List (String × α)) (k : String) :
    (put key value entries).lookup k = if k = key then some value else entries.lookup k := by
  induction entries with
  | nil => rw [put, lookup_cons_eq]
  | cons entry entries ih =>
    obtain ⟨first, v⟩ := entry
    rw [put]
    by_cases h : first = key
    · rw [if_pos h, h, lookup_cons_eq, lookup_cons_eq]
      by_cases hk : k = key
      · rw [if_pos hk, if_pos hk]
      · rw [if_neg hk, if_neg hk, if_neg hk]
    · rw [if_neg h, lookup_cons_eq, lookup_cons_eq, ih]
      by_cases hk : k = first
      · rw [if_pos hk, if_neg (hk ▸ h), if_pos hk]
      · rw [if_neg hk, if_neg hk]

/-- Of several values that are put for one key, the last counts. -/
theorem lookup_foldl_put (given entries : List (String × α)) (k : String) :
    (given.foldl (fun entries (key, value) => put key value entries) entries).lookup k =
      (given.reverse.lookup k).or (entries.lookup k) := by
  induction given generalizing entries with
  | nil => rfl
  | cons entry given ih =>
    obtain ⟨key, value⟩ := entry
    rw [List.foldl_cons, ih, lookup_put, List.reverse_cons, List.lookup_append, Option.or_assoc, lookup_cons_eq]
    by_cases h : k = key
    · rw [if_pos h, if_pos h, Option.some_or]
    · rw [if_neg h, if_neg h, List.lookup_nil, Option.none_or]

theorem lookup_eq_find? (entries : List (String × α)) (k : String) :
    entries.lookup k = (entries.find? (·.1 == k)).map Prod.snd := by
  induction entries with
  | nil => rfl
  | cons entry entries ih =>
    rw [lookup_cons_eq, List.find?_cons, ih]
    by_cases h : k = entry.1
    · rw [if_pos h, beq_iff_eq.mpr h.symm]
      rfl
    · rw [if_neg h, beq_eq_false_iff_ne.mpr (Ne.symm h)]

/-- In a list read from its end, the last value of a key counts. -/
theorem lookup_reverse (entries : List (String × α)) (k : String) :
    entries.reverse.lookup k = ((entries.filter (·.1 == k)).getLast?).map Prod.snd := by
  rw [lookup_eq_find?, ← List.head?_filter, List.filter_reverse, List.head?_reverse]

theorem keys_put (key : String) (value : α) (entries : List (String × α)) :
    (put key value entries).map Prod.fst =
      if key ∈ entries.map Prod.fst then entries.map Prod.fst else entries.map Prod.fst ++ [key] := by
  induction entries with
  | nil => rfl
  | cons entry entries ih =>
    obtain ⟨first, v⟩ := entry
    rw [put]
    by_cases h : first = key
    · subst h
      rw [if_pos rfl, List.map_cons, List.map_cons, if_pos List.mem_cons_self]
    · rw [if_neg h, List.map_cons, List.map_cons, ih]
      by_cases hmem : key ∈ entries.map Prod.fst
      · rw [if_pos hmem, if_pos (List.mem_cons_of_mem _ hmem)]
      · rw [if_neg hmem, if_neg fun hkey => (List.mem_cons.mp hkey).elim (fun heq => h heq.symm) hmem]
        rfl

theorem mem_put {key : String} {value : α} {entries : List (String × α)} {entry : String × α}
    (h : entry ∈ put key value entries) : entry = (key, value) ∨ entry ∈ entries := by
  induction entries with
  | nil => exact .inl (List.mem_singleton.mp h)
  | cons first entries ih =>
    obtain ⟨k, v⟩ := first
    rw [put] at h
    split at h
    · rename_i hk
      exact (List.mem_cons.mp h).imp (fun heq => hk ▸ heq) (.tail _)
    · rcases List.mem_cons.mp h with rfl | h
      · exact .inr (.head _)
      · exact (ih h).imp_right (.tail _)

theorem nodup_keys_foldl_put (given entries : List (String × α)) (h : (entries.map Prod.fst).Nodup) :
    ((given.foldl (fun entries (key, value) => put key value entries) entries).map Prod.fst).Nodup := by
  induction given generalizing entries with
  | nil => exact h
  | cons entry given ih =>
    apply ih
    rw [keys_put]
    split
    · exact h
    · rename_i hkey
      exact List.nodup_append.mpr ⟨h, List.nodup_singleton _, fun k hk k' hk' heq =>
        hkey (List.mem_singleton.mp hk' ▸ heq ▸ hk)⟩

theorem lookup_eq_some_iff_mem {entries : List (String × α)} (h : (entries.map Prod.fst).Nodup) {k : String} {value : α} :
    entries.lookup k = some value ↔ (k, value) ∈ entries := by
  induction entries with
  | nil => simp
  | cons entry entries ih =>
    obtain ⟨hkey, hrest⟩ := List.nodup_cons.mp h
    rw [lookup_cons_eq, List.mem_cons]
    by_cases hk : k = entry.1
    · subst hk
      rw [if_pos rfl, Option.some.injEq]
      refine ⟨fun heq => .inl (heq ▸ rfl), fun hmem => ?_⟩
      rcases hmem with heq | hmem
      · exact (congrArg Prod.snd heq).symm
      · exact absurd (List.mem_map_of_mem hmem) hkey
    · rw [if_neg hk, ih hrest]
      exact ⟨.inr, fun hmem => hmem.resolve_left fun heq => hk (congrArg Prod.fst heq)⟩

/-- Where no key has two entries, their order does not matter. -/
theorem lookup_perm {entries entries' : List (String × α)} (hperm : entries'.Perm entries)
    (h : (entries.map Prod.fst).Nodup) (k : String) : entries'.lookup k = entries.lookup k := by
  have h' : (entries'.map Prod.fst).Nodup := (hperm.map Prod.fst).nodup_iff.mpr h
  apply Option.ext
  intro value
  rw [lookup_eq_some_iff_mem h', lookup_eq_some_iff_mem h, hperm.mem_iff]

end Lookup

section Put
variable {α : Type} {key : String} {entries : List (String × α)}

theorem put_put (value value' : α) : put key value' (put key value entries) = put key value' entries := by
  induction entries with
  | nil => simp only [put, if_true]
  | cons entry entries ih =>
    obtain ⟨first, v⟩ := entry
    by_cases h : first = key
    · rw [put, if_pos h, put, if_pos h, put, if_pos h]
    · rw [put, if_neg h, put, if_neg h, put, if_neg h, ih]

theorem put_of_lookup {value : α} (h : entries.lookup key = some value) : put key value entries = entries := by
  induction entries with
  | nil => cases h
  | cons entry entries ih =>
    obtain ⟨first, v⟩ := entry
    rw [lookup_cons_eq] at h
    rw [put]
    by_cases hkey : key = first
    · subst hkey
      rw [if_pos rfl] at h
      rw [if_pos rfl, Option.some.inj h]
    · rw [if_neg hkey] at h
      rw [if_neg (Ne.symm hkey), ih h]

theorem lookup_filter_ne (entries : List (String × α)) (key k : String) :
    (entries.filter (·.1 != key)).lookup k = if k = key then none else entries.lookup k := by
  induction entries with
  | nil => simp
  | cons entry entries ih =>
    obtain ⟨first, v⟩ := entry
    rw [List.filter_cons]
    by_cases h : first = key
    · subst h
      rw [if_neg (by simp), ih, lookup_cons_eq]
      by_cases hk : k = first
      · rw [if_pos hk, if_pos hk]
      · rw [if_neg hk, if_neg hk, if_neg hk]
    · rw [if_pos (by simpa using h), lookup_cons_eq, lookup_cons_eq, ih]
      by_cases hk : k = first
      · rw [if_pos hk, if_neg (hk ▸ h), if_pos hk]
      · rw [if_neg hk, if_neg hk]

theorem filter_ne_of_lookup (h : entries.lookup key = none) : entries.filter (·.1 != key) = entries := by
  rw [List.filter_eq_self]
  intro entry hentry
  have hne : key ≠ entry.1 := bne_iff_ne.mp (List.lookup_eq_none_iff.mp h entry hentry)
  exact bne_iff_ne.mpr hne.symm

theorem filter_put_self (value : α) : (put key value entries).filter (·.1 != key) = entries.filter (·.1 != key) := by
  induction entries with
  | nil => simp [put]
  | cons entry entries ih =>
    obtain ⟨first, v⟩ := entry
    rw [put]
    by_cases h : first = key
    · rw [if_pos h]
      simp [h]
    · rw [if_neg h]
      simp [h, ih]

theorem filter_put_of_ne {other : String} (h : other ≠ key) (value : α) :
    (put other value entries).filter (·.1 != key) = put other value (entries.filter (·.1 != key)) := by
  induction entries with
  | nil => simp [put, h]
  | cons entry entries ih =>
    obtain ⟨first, v⟩ := entry
    rw [put]
    by_cases hfirst : first = other
    · subst hfirst
      simp [h, put]
    · rw [if_neg hfirst]
      by_cases hkey : first = key
      · simp [hkey, ih]
      · simp [hkey, hfirst, ih, put]

end Put

section Distinct
variable {α : Type} [BEq α] [LawfulBEq α]

/-- Adding items one by one, unless they are there, appends what is missing, each item once and in order. -/
theorem foldl_missing (seen items : List α) :
    items.foldl (fun seen a => if seen.contains a then seen else seen ++ [a]) seen =
      seen ++ (items.removeAll seen).eraseDups := by
  induction items generalizing seen with
  | nil => simp [List.removeAll]
  | cons a items ih =>
    rw [List.foldl_cons, ih]
    by_cases h : seen.contains a = true
    · rw [if_pos h, List.cons_removeAll, if_neg (by simpa using h)]
    · rw [if_neg h, List.cons_removeAll, if_pos (by simpa using h), List.eraseDups_cons, List.append_assoc]
      have hr : items.removeAll (seen ++ [a]) = (items.removeAll seen).filter fun b => !b == a := by
        simp only [List.removeAll, List.filter_filter, List.elem_eq_contains, List.contains_append]
        congr 1
        funext b
        simp [Bool.and_comm]
      rw [hr]
      rfl

theorem eraseDups_concat (items : List α) (a : α) :
    (items ++ [a]).eraseDups = items.eraseDups ++ if items.contains a then [] else [a] := by
  rw [List.eraseDups_append]
  by_cases h : items.contains a = true
  · rw [if_pos h, List.cons_removeAll, if_neg (by simpa using h)]
    rfl
  · rw [if_neg h, List.cons_removeAll, if_pos (by simpa using h), List.eraseDups_cons]
    rfl

/-- What is left of a list without repetitions stands in the order of first occurrences. -/
theorem pairwise_idxOf_eraseDups (items : List α) :
    items.eraseDups.Pairwise fun a b => items.idxOf a < items.idxOf b := by
  induction items using List.reverseRecOn with
  | nil => simp
  | append_singleton items a ih =>
    have old (b : α) (hb : b ∈ items) : (items ++ [a]).idxOf b = items.idxOf b :=
      List.idxOf_append_of_mem hb
    have he : items.eraseDups.Pairwise fun b c => (items ++ [a]).idxOf b < (items ++ [a]).idxOf c := by
      refine ih.imp_of_mem fun hb hc h => ?_
      rwa [old _ (List.mem_eraseDups.mp hb), old _ (List.mem_eraseDups.mp hc)]
    rw [eraseDups_concat]
    split
    · simpa using he
    · rename_i hn
      refine List.pairwise_append.mpr ⟨he, by simp, fun b hb c hc => ?_⟩
      obtain rfl := List.mem_singleton.mp hc
      have hb := List.mem_eraseDups.mp hb
      rw [old b hb, List.idxOf_append_of_notMem (by simpa using hn)]
      have := List.idxOf_lt_length_of_mem hb
      omega

theorem nodup_eraseDups (items : List α) : items.eraseDups.Nodup :=
  (pairwise_idxOf_eraseDups items).imp fun h he => by simp [he] at h

end Distinct

/-- A way to keep one entry for each key: an item is merged into the entry of its key, or else opens one at the end
if it can. -/
structure Gathering (α β : Type) where
  key : β → String
  /-- The key of the entry that an item belongs to. -/
  target : α → String
  merge : β → α → β
  opened : α → Option β
  key_merge : ∀ b a, key (merge b a) = key b
  key_opened : ∀ a b, opened a = some b → key b = target a

namespace Gathering
variable {α β : Type} (g : Gathering α β)

def add (a : α) : List β → List β
  | [] => (g.opened a).toList
  | b :: rest => if g.key b = g.target a then g.merge b a :: rest else b :: add a rest

def gather (items : List α) : List β := items.foldl (fun entries a => g.add a entries) []

/-- What becomes of the entry of a key when a further item of that key comes. -/
def next (entry : Option β) (a : α) : Option β :=
  match entry with
  | none => g.opened a
  | some b => some (g.merge b a)

/-- The entry that the items of one key make. -/
def entryOf (items : List α) (k : String) : Option β :=
  (items.filter fun a => g.target a = k).foldl g.next none

def find? (entries : List β) (k : String) : Option β := entries.find? fun b => g.key b = k

theorem find?_add (a : α) (entries : List β) (k : String) :
    g.find? (g.add a entries) k =
      if g.target a = k then g.next (g.find? entries k) a else g.find? entries k := by
  induction entries with
  | nil =>
    cases h : g.opened a with
    | none => simp [add, find?, next, h]
    | some b =>
      have hk := g.key_opened a b h
      by_cases ht : g.target a = k <;> simp [add, find?, next, h, hk, ht]
  | cons b rest ih =>
    by_cases hb : g.key b = g.target a
    · have hm := g.key_merge b a
      by_cases ht : g.target a = k <;> simp [add, find?, next, hb, hm, ht]
    · by_cases hk : g.key b = k
      · have ht : g.target a ≠ k := fun ht => hb (hk.trans ht.symm)
        rw [if_neg ht, add, if_neg hb, find?, find?, List.find?_cons_of_pos (by simpa using hk),
          List.find?_cons_of_pos (by simpa using hk)]
      · simpa [add, find?, hb, hk] using ih

theorem find?_foldl_add (items : List α) (entries : List β) (k : String) :
    g.find? (items.foldl (fun entries a => g.add a entries) entries) k =
      (items.filter fun a => g.target a = k).foldl g.next (g.find? entries k) := by
  induction items generalizing entries with
  | nil => rfl
  | cons a items ih =>
    rw [List.foldl_cons, ih, find?_add]
    by_cases ht : g.target a = k <;> simp [ht]

theorem find?_gather (items : List α) (k : String) : g.find? (g.gather items) k = g.entryOf items k :=
  g.find?_foldl_add items [] k

theorem keys_add (a : α) (entries : List β) :
    (g.add a entries).map g.key = entries.map g.key ++
      if (entries.map g.key).contains (g.target a) || (g.opened a).isNone then [] else [g.target a] := by
  induction entries with
  | nil =>
    cases h : g.opened a with
    | none => simp [add, h]
    | some b => simp [add, h, g.key_opened a b h]
  | cons b rest ih =>
    by_cases hb : g.key b = g.target a
    · simp [add, hb, g.key_merge]
    · have hb' : (g.target a == g.key b) = false := by simpa using Ne.symm hb
      simp only [add, hb, if_false, List.map_cons, ih, List.contains_cons, hb', Bool.false_or, List.cons_append]

/-- The keys of the entries, in the order in which items first opened one. -/
theorem keys_gather (items : List α) :
    (g.gather items).map g.key = ((items.filter fun a => (g.opened a).isSome).map g.target).eraseDups := by
  induction items using List.reverseRecOn with
  | nil => rfl
  | append_singleton items a ih =>
    have hm (k : String) : ((items.filter fun a => (g.opened a).isSome).map g.target).eraseDups.contains k =
        ((items.filter fun a => (g.opened a).isSome).map g.target).contains k := by
      rw [Bool.eq_iff_iff]
      simp only [List.contains_iff_mem, List.mem_eraseDups]
    have hs : g.gather (items ++ [a]) = g.add a (g.gather items) := by simp [gather]
    rw [hs, keys_add, ih, hm, List.filter_append, List.map_append]
    cases h : (g.opened a).isSome with
    | false =>
      have hn : (g.opened a).isNone = true := by simpa using h
      simp [h, hn]
    | true =>
      have hn : (g.opened a).isNone = false := by simp [Option.isNone_eq_false_iff, h]
      simp only [List.filter_cons, h, if_true, List.filter_nil, List.map_cons, List.map_nil, eraseDups_concat, hn,
        Bool.or_false]

theorem nodup_keys (items : List α) : ((g.gather items).map g.key).Nodup := by
  rw [keys_gather]
  exact nodup_eraseDups _

/-- The entries are exactly those that the items of their own key make. -/
theorem mem_gather (items : List α) (b : β) : b ∈ g.gather items ↔ g.entryOf items (g.key b) = some b := by
  rw [← find?_gather, find?]
  constructor
  · intro hb
    obtain ⟨before, after, he⟩ := List.append_of_mem hb
    have hn := g.nodup_keys items
    rw [he, List.map_append, List.map_cons] at hn
    refine List.find?_eq_some_iff_append.mpr ⟨by simp, before, after, he, fun c hc => ?_⟩
    have := (List.nodup_append.mp hn).2.2 (g.key c) (List.mem_map_of_mem hc) (g.key b) (by simp)
    simpa using this
  · exact List.mem_of_find?_eq_some

theorem foldl_next_some (items : List α) (b : β) : items.foldl g.next (some b) = some (items.foldl g.merge b) := by
  induction items generalizing b with
  | nil => rfl
  | cons a items ih => exact ih (g.merge b a)

/-- An entry is opened by the first item that can open one, and all items after it are merged into it. -/
theorem foldl_next_eq_some {items : List α} {b : β} (h : items.foldl g.next none = some b) :
    ∃ before a after c, items = before ++ a :: after ∧ (∀ x ∈ before, g.opened x = none) ∧
      g.opened a = some c ∧ b = after.foldl g.merge c := by
  induction items with
  | nil => cases h
  | cons a items ih =>
    rw [List.foldl_cons, next] at h
    cases ha : g.opened a with
    | none =>
      rw [ha] at h
      obtain ⟨before, x, after, c, rfl, hb, hx⟩ := ih h
      exact ⟨a :: before, x, after, c, rfl, by simpa [ha] using hb, hx⟩
    | some c =>
      rw [ha, foldl_next_some] at h
      exact ⟨[], a, items, c, rfl, by simp, ha, (Option.some.inj h).symm⟩

end Gathering
end ApiHandbook
