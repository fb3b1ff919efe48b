import FtpControl.Proofs.Layering

/-!
This module contains the theory of keys that lead to places inside of values. Whatever the keys of a
source look like, a value that is given for a name by its own key is either what stands there in the
end or it has made room for a table or an array, and no table ever has a key twice.
-/

namespace FtpControl.Config

namespace Path

theorem eq_nil_of_steps? {n : Nat} {cs : List Char} (h : steps? n cs = some []) : cs = [] := by
  cases n with
  | zero =>
    cases cs with
    | nil => rfl
    | cons c cs => simp [steps?] at h
  | succ n =>
    cases cs with
    | nil => rfl
    | cons c cs =>
      simp only [steps?, Option.bind_eq_bind, Option.bind_eq_some_iff] at h
      obtain ⟨_, _, _, _, h⟩ := h
      cases h

theorem eq_of_ofKey {s key : String} (h : ofKey s = ⟨key, []⟩) : s = key := by
  unfold ofKey parse? at h
  dsimp only at h
  split at h
  . exact congrArg Path.key h
  . next name _ =>
    cases hsteps : steps? s.toList.length (s.toList.dropWhile isName) with
    | none =>
      rw [hsteps] at h
      exact congrArg Path.key h
    | some steps =>
      rw [hsteps] at h
      have hrest : s.toList.dropWhile isName = [] := by
        apply eq_nil_of_steps?
        rw [hsteps]
        exact congrArg some (congrArg Path.steps h)
      have hwhole := List.takeWhile_append_dropWhile (p := isName) (l := s.toList)
      rw [hrest, List.append_nil] at hwhole
      have hkey : String.ofList (s.toList.takeWhile isName) = key := congrArg Path.key h
      rw [← hkey, hwhole, String.ofList_toList]

end Path

namespace Setting

def isNode : Setting → Bool
  | table .. | array .. => true
  | _ => false

theorem atop_of_not_isNode {v : Setting} (hv : v.isNode = false) (old : Option Setting)
    : v.atop old = v := by
  cases v with
  | nothing | scalar | array => rfl
  | table => contradiction

theorem isNode_place (v target : Setting) {steps : List Step} (hsteps : steps ≠ [])
    : (v.place steps target).isNode = true := by
  match steps with
  | [.child _] | .child _ :: _ :: _ | .index _ :: _ => rfl

/-- `v` stands here, or a table or an array that took its place. -/
def StandsIn (v : Setting) (old : Option Setting) : Prop :=
  old = some v ∨ ∃ node, old = some node ∧ node.isNode = true

theorem StandsIn.toNat_eq_ok {v : Setting} {old : Option Setting} {n : Nat} (h : v.StandsIn old)
    (hn : (old.getD nothing).toNat = .ok n) : v.toNat = .ok n := by
  obtain rfl | ⟨node, rfl, hnode⟩ := h
  . exact hn
  . cases node with
    | nothing | scalar => contradiction
    | table | array => simp [toNat] at hn

def Distinct (v : Setting) : Prop :=
  (v.asTable.2.map Prod.fst).Nodup

end Setting

namespace Settings

variable {entries : List (String × Setting)}

theorem standsIn_collect {t : Settings} {key : String} {v : Setting} (hplain : IsPlain key)
    (hv : v.isNode = false) (honly : ∀ entry ∈ entries, entry.1 = key → entry.2 = v)
    (h : v.StandsIn (t.lookup key) ∨ (key, v) ∈ entries)
    : v.StandsIn ((t.collect entries).lookup key) := by
  induction entries generalizing t with
  | nil => simpa [collect] using h
  | cons entry entries ih =>
    rw [collect_cons]
    apply ih fun other hother => honly other (List.mem_cons_of_mem _ hother)
    rw [lookup_set]
    by_cases hkey : entry.1 = key
    . have hvalue := honly entry List.mem_cons_self hkey
      left
      left
      rw [hkey, hvalue, hplain, if_pos rfl]
      exact congrArg some (Setting.atop_of_not_isNode hv _)
    . have hsteps : key = (Path.ofKey entry.1).key → (Path.ofKey entry.1).steps ≠ [] := by
        rintro hhead hnil
        apply hkey
        apply Path.eq_of_ofKey
        rw [hhead, ← hnil]
      obtain hstands | hmem := h
      . left
        split
        . next hhead =>
          right
          refine ⟨_, rfl, ?_⟩
          unfold Setting.put
          split
          . exact absurd ‹_› (hsteps hhead)
          . exact Setting.isNode_place _ _ (hsteps hhead)
        . exact hstands
      . right
        obtain heq | hmem := List.mem_cons.1 hmem
        . exact absurd (congrArg Prod.fst heq).symm hkey
        . exact hmem

theorem nodup_insert {t : Settings} (ht : (t.map Prod.fst).Nodup) (key : String) (v : Setting)
    : ((t.insert key v).map Prod.fst).Nodup := by
  unfold insert
  split
  . have hkeys : (t.map fun entry => if entry.1 = key then (key, v) else entry).map Prod.fst
        = t.map Prod.fst := by
      rw [List.map_map]
      apply List.map_congr_left
      intro entry _
      dsimp only [Function.comp]
      split
      . next heq => exact heq.symm
      . rfl
    rw [hkeys]
    exact ht
  . next hnew =>
    rw [Bool.not_eq_true, Option.isSome_eq_false_iff, Option.isNone_iff_eq_none,
      List.lookup_eq_none_iff] at hnew
    rw [List.map_append, List.nodup_append]
    refine ⟨ht, by simp, ?_⟩
    intro other hother last hlast
    obtain ⟨entry, hentry, rfl⟩ := List.mem_map.1 hother
    obtain rfl := List.mem_singleton.1 hlast
    exact (bne_iff_ne.1 (hnew entry hentry)).symm

end Settings

namespace Setting.Distinct

theorem of_insert {target : Setting} (h : target.Distinct) (source : Option Source) (key : String)
    (v : Setting) : (table source (target.asTable.2.insert key v)).Distinct :=
  Settings.nodup_insert h key v

theorem layAll (entries : List (String × Setting)) {target : Setting} (h : target.Distinct)
    : (Setting.layAll entries target).Distinct := by
  induction entries generalizing target with
  | nil =>
    rw [Setting.layAll]
    exact h
  | cons entry entries ih =>
    rw [Setting.layAll]
    apply ih
    rw [layOver_eq_insert]
    exact h.of_insert _ _ _

theorem put (v : Setting) (steps : List Step) {old : Option Setting}
    (h : (old.getD nothing).Distinct) : (v.put steps old).Distinct := by
  match steps with
  | [] =>
    change (v.atop old).Distinct
    cases v with
    | nothing | scalar | array => exact List.nodup_nil
    | table source entries =>
      apply layAll
      cases old with
      | none => exact List.nodup_nil
      | some old => exact h
  | [.child key] =>
    change (table _ (layOver key v _)).Distinct
    rw [layOver_eq_insert]
    exact h.of_insert _ _ _
  | .child _ :: _ :: _ => exact h.of_insert _ _ _
  | .index _ :: _ => exact List.nodup_nil

end Setting.Distinct

namespace Settings

theorem distinct_collect {t : Settings} {key : String}
    (h : ((t.lookup key).getD .nothing).Distinct) (entries : List (String × Setting))
    : (((t.collect entries).lookup key).getD .nothing).Distinct := by
  induction entries generalizing t with
  | nil => exact h
  | cons entry entries ih =>
    rw [collect_cons]
    apply ih
    rw [lookup_set]
    split
    . next hkey => exact .put _ _ (hkey ▸ h)
    . exact h

end Settings

end FtpControl.Config
