import Mathlib.Data.List.Induction
import StyleSheet.Grouping

/-!
# Distinct keys, and what is gathered

Whatever is gathered, no two batches have the same key (`Distinct`), because a key that
is the same as an earlier one opens no batch.  So a batch is found under its key.

Insertions one after the other can be told without the batches on the way: `gather` takes
from all items the keys that are not the same as an earlier one, and under each of them
the members of all items with that key (`foldl_insert_eq_gather`).  For this, being the
same has to be an equivalence.
-/

namespace StyleSheet
namespace Batch

variable {κ α : Type} {same : κ → κ → Bool} {key : κ} {members : List α} {gs : List (Batch κ α)}

/-- No batch has the same key as a later one. -/
def Distinct (same : κ → κ → Bool) (gs : List (Batch κ α)) : Prop :=
  gs.Pairwise fun g h => same g.key h.key = false

/-- The keys after an insertion are those before it, and the new one at most. -/
theorem key_of_mem_insert {h : Batch κ α} (hh : h ∈ insert same key members gs) :
    h.key = key ∨ ∃ g ∈ gs, h.key = g.key := by
  induction gs with
  | nil =>
    rw [insert_nil, List.mem_singleton] at hh
    exact .inl (hh ▸ rfl)
  | cons g gs ih =>
    rw [insert] at hh
    split at hh
    · rcases List.mem_cons.mp hh with rfl | hh
      · exact .inr ⟨g, List.mem_cons_self, rfl⟩
      · exact .inr ⟨h, List.mem_cons_of_mem g hh, rfl⟩
    · rcases List.mem_cons.mp hh with rfl | hh
      · exact .inr ⟨h, List.mem_cons_self, rfl⟩
      · rcases ih hh with hkey | ⟨g', hg', hkey⟩
        · exact .inl hkey
        · exact .inr ⟨g', List.mem_cons_of_mem g hg', hkey⟩

/-- An insertion keeps the keys distinct. -/
theorem Distinct.insert (h : Distinct same gs) (key : κ) (members : List α) :
    Distinct same (Batch.insert same key members gs) := by
  induction gs with
  | nil => exact List.pairwise_singleton _ _
  | cons g gs ih =>
    obtain ⟨hg, hgs⟩ := List.pairwise_cons.mp h
    rw [Batch.insert]
    split
    · exact List.pairwise_cons.mpr ⟨hg, hgs⟩
    · next hkey =>
      refine List.pairwise_cons.mpr ⟨fun h hh => ?_, ih hgs⟩
      rcases key_of_mem_insert hh with heq | ⟨g', hg', heq⟩
      · rw [heq]
        exact Bool.eq_false_iff.mpr hkey
      · rw [heq]
        exact hg g' hg'

/-- Insertions one after the other keep the keys distinct. -/
theorem Distinct.foldl_insert {β : Type} (h : Distinct same gs) (items : List β) (key : β → κ)
    (members : β → List α) :
    Distinct same (items.foldl (fun gs i => Batch.insert same (key i) (members i) gs) gs) := by
  induction items generalizing gs with
  | nil => exact h
  | cons i items ih => exact ih (h.insert (key i) (members i))

/-- A batch is found under its key. -/
theorem Distinct.find?_eq_some (h : Distinct same gs) (hrefl : ∀ k, same k k = true)
    {g : Batch κ α} (hg : g ∈ gs) : find? same g.key gs = some g := by
  induction gs with
  | nil => cases hg
  | cons g' gs ih =>
    obtain ⟨hg', hgs⟩ := List.pairwise_cons.mp h
    rcases List.mem_cons.mp hg with rfl | hg
    · rw [find?, List.find?_cons, hrefl]
    · rw [find?, List.find?_cons, hg' g hg]
      exact ih hgs hg

/-! ## Batches of items -/

/-- Items gathered under their keys: a batch for each key that is not the same as an earlier
one, with the members of all items under that key in order. -/
def gather (same : κ → κ → Bool) (items : List (κ × List α)) : List (Batch κ α) :=
  ((items.map Prod.fst).eraseDupsBy same).map fun key =>
    ⟨key, (items.filter fun i => same i.1 key).flatMap Prod.snd⟩

section Gather

variable (hsame : Equivalence fun a b => same a b = true)

include hsame

theorem same_comm (a b : κ) : same a b = same b a :=
  Bool.eq_iff_iff.mpr ⟨fun h => hsame.symm h, fun h => hsame.symm h⟩

/-- One more key is kept if no earlier one is the same. -/
theorem eraseDupsBy_concat (keys : List κ) (key : κ) :
    (keys ++ [key]).eraseDupsBy same =
      keys.eraseDupsBy same ++ if keys.any (same key) then [] else [key] := by
  match keys with
  | [] => rfl
  | k :: ks =>
    rw [List.cons_append, List.eraseDupsBy_cons, List.eraseDupsBy_cons, List.filter_append,
      List.any_cons]
    cases hkey : same key k with
    | true => simp [hkey]
    | false =>
      -- a key that is the same as `k` is not the same as `key`
      have hany : (ks.filter fun b => same b k = false).any (same key) = ks.any (same key) := by
        rw [List.any_filter, Bool.eq_iff_iff, List.any_eq_true, List.any_eq_true]
        refine exists_congr fun b => and_congr_right fun _ => ?_
        rw [Bool.and_eq_true, and_iff_right_iff_imp, decide_eq_true_iff]
        intro hb
        refine Bool.eq_false_iff.mpr fun hbk => ?_
        exact Bool.eq_false_iff.mp hkey (hsame.trans hb hbk)
      have ih := eraseDupsBy_concat (ks.filter fun b => same b k = false) key
      rw [hany] at ih
      rw [List.filter_cons_of_pos (by simp [hkey]), List.filter_nil, ih, Bool.false_or,
        List.cons_append]
termination_by keys.length
decreasing_by exact Nat.lt_succ_of_le (List.length_filter_le _ _)

/-- An insertion into batches that are given by their keys. -/
theorem insert_map {keys : List κ} (hkeys : keys.Pairwise fun a b => same a b = false)
    (f : κ → List α) (key : κ) (members : List α) :
    insert same key members (keys.map fun k => ⟨k, f k⟩) =
      (keys.map fun k => ⟨k, f k ++ if same key k then members else []⟩) ++
        if keys.any (same key) then [] else [⟨key, members⟩] := by
  induction keys with
  | nil => rfl
  | cons k ks ih =>
    obtain ⟨hk, hks⟩ := List.pairwise_cons.mp hkeys
    rw [List.map_cons, insert, List.map_cons, List.any_cons, same_comm hsame k key]
    cases hkey : same key k with
    | true =>
      have hrest : ∀ k' ∈ ks, same key k' = false := fun k' hk' =>
        Bool.eq_false_iff.mpr fun h =>
          Bool.eq_false_iff.mp (hk k' hk') (hsame.trans (hsame.symm hkey) h)
      have hmap : (ks.map fun k' => (⟨k', f k' ++ if same key k' then members else []⟩ :
          Batch κ α)) = ks.map fun k' => ⟨k', f k'⟩ :=
        List.map_congr_left fun k' hk' => by simp [hrest k' hk']
      rw [hmap]
      simp
    | false =>
      rw [ih hks]
      simp

/-- The keys that are kept are the same as all keys. -/
theorem any_eraseDupsBy (keys : List κ) (key : κ) :
    (keys.eraseDupsBy same).any (same key) = keys.any (same key) := by
  induction keys using List.reverseRecOn with
  | nil => rfl
  | append_singleton keys k ih =>
    rw [eraseDupsBy_concat hsame, List.any_append, List.any_append, ih, List.any_cons,
      List.any_nil, Bool.or_false]
    cases hk : keys.any (same k) with
    | false => simp
    | true =>
      -- a key that is the same as `k` is the same as an earlier key
      obtain ⟨b, hb, hkb⟩ := List.any_eq_true.mp hk
      have himp : same key k = true → keys.any (same key) = true := fun h =>
        List.any_eq_true.mpr ⟨b, hb, hsame.trans h hkb⟩
      cases h : same key k with
      | false => simp
      | true => simp [himp h]

theorem pairwise_eraseDupsBy (keys : List κ) :
    (keys.eraseDupsBy same).Pairwise fun a b => same a b = false := by
  induction keys using List.reverseRecOn with
  | nil => exact List.Pairwise.nil
  | append_singleton keys k ih =>
    rw [eraseDupsBy_concat hsame]
    split
    · rwa [List.append_nil]
    · next hk =>
      rw [← any_eraseDupsBy hsame, List.any_eq_true] at hk
      refine List.pairwise_append.mpr ⟨ih, List.pairwise_singleton _ _, fun a ha b hb => ?_⟩
      rw [List.mem_singleton.mp hb, same_comm hsame]
      exact Bool.eq_false_iff.mpr fun h => hk ⟨a, ha, h⟩

/-- One more item is one more insertion. -/
theorem gather_concat (items : List (κ × List α)) (key : κ) (members : List α) :
    gather same (items ++ [(key, members)]) = insert same key members (gather same items) := by
  have hfilter : ∀ k, ((items ++ [(key, members)]).filter fun i => same i.1 k).flatMap Prod.snd =
      (items.filter fun i => same i.1 k).flatMap Prod.snd ++
        if same key k then members else [] := by
    intro k
    rw [List.filter_append, List.flatMap_append]
    cases h : same key k with
    | false => simp [h]
    | true => simp [h]
  rw [gather, gather, List.map_append, List.map_singleton, eraseDupsBy_concat hsame,
    insert_map hsame (pairwise_eraseDupsBy hsame _), any_eraseDupsBy hsame, List.map_append]
  simp only [hfilter]
  split
  · rfl
  · next hkey =>
    -- no earlier item is under the new key
    have hnone : (items.filter fun i => same i.1 key).flatMap Prod.snd = [] := by
      have hnil : (items.filter fun i => same i.1 key) = [] := by
        refine List.filter_eq_nil_iff.mpr fun i hi h => hkey ?_
        exact List.any_eq_true.mpr ⟨i.1, List.mem_map_of_mem hi, hsame.symm h⟩
      rw [hnil, List.flatMap_nil]
    rw [List.map_singleton, hnone, if_pos (hsame.refl key), List.nil_append]

/-- Insertions one after the other gather the items. -/
theorem foldl_insert_eq_gather (items : List (κ × List α)) :
    items.foldl (fun gs i => insert same i.1 i.2 gs) [] = gather same items := by
  induction items using List.reverseRecOn with
  | nil => rfl
  | append_singleton items i ih =>
    rw [List.foldl_append, ih, gather_concat hsame]
    rfl

end Gather

end Batch
end StyleSheet
