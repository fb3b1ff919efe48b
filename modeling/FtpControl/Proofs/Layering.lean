import FtpControl.Config.Convert

/-!
This module contains the theory of settings that are laid over others. What stands under a key
afterwards depends on nothing but what was laid over it and what stood there before, and it converts
to what the upper value converts to. The one value that leaves what it is laid over is the empty
table.
-/

namespace FtpControl.Config

theorem bind_eq_ok_iff {ε α β : Type} {x : Except ε α} {f : α → Except ε β} {b : β}
    : x >>= f = .ok b ↔ ∃ a, x = .ok a ∧ f a = .ok b := by
  cases x <;> simp [bind, Except.bind]

theorem mapError_eq_ok_iff {ε ε' α : Type} {x : Except ε α} {f : ε → ε'} {a : α}
    : x.mapError f = .ok a ↔ x = .ok a := by
  cases x with
  | ok b =>
    change (Except.ok b : Except ε' α) = .ok a ↔ (Except.ok b : Except ε α) = .ok a
    simp
  | error e =>
    change (Except.error (f e) : Except ε' α) = .ok a ↔ (Except.error e : Except ε α) = .ok a
    simp

namespace Settings

theorem lookup_mapValues {α β : Type} (f : α → β) (entries : List (String × α)) (key : String)
    : (entries.map fun entry => (entry.1, f entry.2)).lookup key = (entries.lookup key).map f := by
  induction entries with
  | nil => rfl
  | cons entry entries ih =>
    rw [List.map_cons, List.lookup_cons, List.lookup_cons, ih]
    cases key == entry.1 <;> rfl

theorem lookup_replaced (t : Settings) (key other : String) (v : Setting)
    : (t.map fun entry => if entry.1 = key then (key, v) else entry).lookup other
        =
      if other = key then (t.lookup key).map fun _ => v else t.lookup other := by
  induction t with
  | nil => simp
  | cons entry t ih =>
    obtain ⟨first, w⟩ := entry
    rw [List.map_cons, List.lookup_cons, List.lookup_cons, List.lookup_cons, ih]
    by_cases hfirst : first = key
    . subst hfirst
      by_cases hother : other = first
      . simp [hother]
      . simp [hother, beq_eq_false_iff_ne.2 hother]
    . have hne : (key == first) = false := beq_eq_false_iff_ne.2 (Ne.symm hfirst)
      rw [if_neg hfirst, hne]
      by_cases hother : other = key
      . rw [hother, hne]
      . rw [if_neg hother, if_neg hother]

theorem lookup_insert (t : Settings) (key other : String) (v : Setting)
    : (t.insert key v).lookup other = if other = key then some v else t.lookup other := by
  unfold insert
  split
  . next hold =>
    obtain ⟨w, hlookup⟩ := Option.isSome_iff_exists.1 hold
    rw [lookup_replaced, hlookup]
    rfl
  . next hnew =>
    rw [Bool.not_eq_true, Option.isSome_eq_false_iff, Option.isNone_iff_eq_none] at hnew
    rw [List.lookup_append]
    by_cases hother : other = key
    . simp [hother, hnew]
    . simp [hother, List.lookup_cons, beq_eq_false_iff_ne.2 hother]

end Settings

namespace Setting

def isBlank : Setting → Bool
  | table _ [] => true
  | _ => false

def atop (v : Setting) (old : Option Setting) : Setting :=
  match v with
  | table _ entries => layAll entries (old.getD (table none []))
  | v => v

theorem layOver_eq_insert (key : String) (v : Setting) (t : Settings)
    : layOver key v t = t.insert key (v.atop (t.lookup key)) := by
  cases v <;> rw [layOver] <;> simp [atop]

def put (v : Setting) (steps : List Step) (old : Option Setting) : Setting :=
  match steps with
  | [] => v.atop old
  | steps => v.place steps (old.getD nothing)

theorem exists_layAll_table (entries : List (String × Setting)) (source : Option Source)
    (t : Settings)
    : ∃ t', layAll entries (table source t) = table source t' := by
  induction entries generalizing t with
  | nil => exact ⟨t, by rw [layAll]⟩
  | cons entry entries ih =>
    rw [layAll]
    apply ih

theorem layAll_of_nodup {entries : List (String × Setting)} {t : Settings}
    (hnodup : (entries.map Prod.fst).Nodup) (hnew : ∀ entry ∈ entries, t.lookup entry.1 = none)
    (source : Option Source)
    : layAll entries (table source t)
        =
      table source (t ++ entries.map fun entry => (entry.1, entry.2.atop none)) := by
  induction entries generalizing t with
  | nil =>
    rw [layAll, List.map_nil, List.append_nil]
  | cons entry entries ih =>
    obtain ⟨key, v⟩ := entry
    rw [List.map_cons, List.nodup_cons] at hnodup
    have hkey : t.lookup key = none := hnew _ List.mem_cons_self
    have hinsert : layOver key v t = t ++ [(key, v.atop none)] := by
      rw [layOver_eq_insert, hkey]
      simp [Settings.insert, hkey]
    rw [layAll]
    dsimp only [asTable]
    rw [hinsert, ih hnodup.2]
    . simp
    . intro other hother
      have hne : other.1 ≠ key := by
        intro heq
        exact hnodup.1 (List.mem_map.2 ⟨other, hother, heq⟩)
      rw [List.lookup_append, hnew other (List.mem_cons_of_mem _ hother), Option.none_or,
        List.lookup_cons, beq_eq_false_iff_ne.2 hne]
      rfl

theorem atop_none_of_nodup {entries : List (String × Setting)}
    (hnodup : (entries.map Prod.fst).Nodup) (source : Option Source)
    : (table source entries).atop none
        =
      table none (entries.map fun entry => (entry.1, entry.2.atop none)) := by
  rw [atop, Option.getD_none, layAll_of_nodup hnodup]
  . rfl
  . simp

/-- Values that convert to the same texts and numbers. How their conversion fails may differ. -/
structure ConvertsAs (v w : Setting) : Prop where
  toText_iff : ∀ s, v.toText = .ok s ↔ w.toText = .ok s
  toNat_iff : ∀ n, v.toNat = .ok n ↔ w.toNat = .ok n

theorem ConvertsAs.refl (v : Setting) : v.ConvertsAs v := by
  constructor <;> simp

theorem ConvertsAs.symm {v w : Setting} (h : v.ConvertsAs w) : w.ConvertsAs v := by
  constructor
  . exact fun s => (h.toText_iff s).symm
  . exact fun n => (h.toNat_iff n).symm

theorem ConvertsAs.table (source source' : Option Source) (t t' : Settings)
    : (table source t).ConvertsAs (table source' t') := by
  constructor <;> simp [toText, toNat]

theorem atop_of_isBlank {v : Setting} (hblank : v.isBlank = true) (old : Setting)
    : v.atop (some old) = old := by
  unfold isBlank at hblank
  split at hblank
  . rw [atop, layAll, Option.getD_some]
  . contradiction

theorem convertsAs_atop {v : Setting} {old : Option Setting} (h : v.isBlank = true → old = none)
    : (v.atop old).ConvertsAs v := by
  cases v with
  | nothing | scalar | array => exact .refl _
  | table source entries =>
    dsimp only [atop]
    cases entries with
    | nil =>
      rw [h rfl, layAll]
      apply ConvertsAs.table
    | cons entry entries =>
      -- the first entry makes a table of whatever is below, and a table stays one
      obtain ⟨t, ht⟩ := exists_layAll_table entries ((old.getD (Setting.table none [])).asTable.1)
        (layOver entry.1 entry.2 ((old.getD (Setting.table none [])).asTable.2))
      rw [layAll, ht]
      apply ConvertsAs.table

end Setting

namespace Settings

def IsPlain (key : String) : Prop :=
  Path.ofKey key = ⟨key, []⟩

instance (key : String) : Decidable (IsPlain key) :=
  inferInstanceAs (Decidable (Path.ofKey key = ⟨key, []⟩))

variable {entries : List (String × Setting)}

theorem lookup_set (t : Settings) (path : Path) (other : String) (v : Setting)
    : (t.set path v).lookup other
        =
      if other = path.key then some (v.put path.steps (t.lookup path.key))
      else t.lookup other := by
  obtain ⟨key, steps⟩ := path
  unfold set
  cases steps with
  | nil =>
    dsimp only
    rw [Setting.layOver_eq_insert, lookup_insert]
    rfl
  | cons step steps =>
    dsimp only
    rw [lookup_insert]
    rfl

theorem collect_cons (t : Settings) (entry : String × Setting)
    : t.collect (entry :: entries) = (t.set (Path.ofKey entry.1) entry.2).collect entries :=
  rfl

theorem lookup_collect_of_ne {key : String}
    (hne : ∀ entry ∈ entries, (Path.ofKey entry.1).key ≠ key) {t : Settings}
    : (t.collect entries).lookup key = t.lookup key := by
  induction entries generalizing t with
  | nil => rfl
  | cons entry entries ih =>
    rw [List.forall_mem_cons] at hne
    rw [collect_cons, ih hne.2, lookup_set, if_neg hne.1.symm]

-- A source with each key once, where no other key leads to `key`, changes what stands under `key`
-- to its own value over it.
theorem lookup_collect {key : String}
    (hleads : ∀ entry ∈ entries,
      IsPlain entry.1 ∨ entry.1 ≠ key ∧ (Path.ofKey entry.1).key ≠ key)
    (hnodup : (entries.map Prod.fst).Nodup) (t : Settings)
    : (t.collect entries).lookup key
        =
      match entries.lookup key with
      | some v => some (v.atop (t.lookup key))
      | none => t.lookup key := by
  induction entries generalizing t with
  | nil => rfl
  | cons entry entries ih =>
    rw [List.map_cons, List.nodup_cons] at hnodup
    have hrest := fun other hother => hleads other (List.mem_cons_of_mem entry hother)
    rw [collect_cons, ih hrest hnodup.2, lookup_set, List.lookup_cons]
    by_cases hkey : key = entry.1
    . subst hkey
      have hplain : IsPlain entry.1 := by
        obtain hplain | ⟨hne, _⟩ := hleads entry List.mem_cons_self
        . exact hplain
        . contradiction
      have hbehind : entries.lookup entry.1 = none := by
        rw [List.lookup_eq_none_iff]
        intro other hother
        rw [bne_iff_ne]
        intro heq
        exact hnodup.1 (List.mem_map.2 ⟨other, hother, heq.symm⟩)
      rw [hplain]
      simp [hbehind, Setting.put]
    . have hne : key ≠ (Path.ofKey entry.1).key := by
        obtain hplain | ⟨_, hne⟩ := hleads entry List.mem_cons_self
        . rw [hplain]
          exact hkey
        . exact hne.symm
      rw [beq_eq_false_iff_ne.2 hkey, if_neg hne]

theorem get_eq_ok_iff {α : Type} (t : Settings) (key : String)
    (convert : Setting → Except Mismatch α) (x : α)
    : t.get key convert = .ok x ↔ convert ((t.lookup key).getD .nothing) = .ok x := by
  unfold get
  rw [mapError_eq_ok_iff]

theorem mapM_eq_ok_iff_of_iff {ε α β : Type} {f g : α → Except ε β}
    (h : ∀ a b, f a = .ok b ↔ g a = .ok b) (as : List α) (bs : List β)
    : as.mapM f = .ok bs ↔ as.mapM g = .ok bs := by
  induction as generalizing bs with
  | nil => rfl
  | cons a as ih =>
    rw [List.mapM_cons, List.mapM_cons]
    simp only [bind_eq_ok_iff, h, ih]

theorem accounts_eq_ok_iff {t t' : Settings} {users : Accounts}
    (hlookup : t'.lookup "users" = (t.lookup "users").map (·.atop none))
    (hnodup : ∀ source entries, t.lookup "users" = some (.table source entries)
      → (entries.map Prod.fst).Nodup)
    : t'.accounts = .ok users ↔ t.accounts = .ok users := by
  unfold accounts
  rw [hlookup]
  cases hold : t.lookup "users" with
  | none => rfl
  | some v =>
    cases v with
    | nothing | scalar | array => rfl
    | table source entries =>
      rw [Option.map_some, Setting.atop_none_of_nodup (hnodup source entries hold)]
      dsimp only
      rw [List.mapM_map]
      simp only [bind_eq_ok_iff]
      apply exists_congr
      intro entries'
      rw [and_congr_left_iff]
      intro _
      apply mapM_eq_ok_iff_of_iff
      intro entry user
      have hatop := (Setting.convertsAs_atop (v := entry.2) (fun _ => rfl)).toText_iff
      simp only [Function.comp, bind_eq_ok_iff, mapError_eq_ok_iff, hatop]

theorem hasRoom_of_isPlain {key : String} (h : IsPlain key) : (Path.ofKey key).hasRoom = true := by
  rw [h]
  rfl

end Settings

end FtpControl.Config
