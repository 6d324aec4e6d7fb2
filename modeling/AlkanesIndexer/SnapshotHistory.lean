import Mathlib.Data.List.MinMax
import Mathlib.Tactic

/-!
# Histories of snapshots

A subject has at most one snapshot at a height, and its latest is the one at the
greatest height.  A batch is taken at one height: what is listed for a subject becomes
a snapshot if it differs from the latest one before the batch, unless the subject has a
snapshot at that height already.  Nothing here depends on the indexer.
-/

namespace SnapshotHistory

variable {κ H V : Type*}

structure Entry (κ H V : Type*) where
  subject : κ
  height : H
  value : V
  deriving DecidableEq, Repr

def Entry.key (entry : Entry κ H V) : κ × H := (entry.subject, entry.height)

def OnePerHeight (entries : List (Entry κ H V)) : Prop := (entries.map Entry.key).Nodup

section Insert

variable [DecidableEq κ] [DecidableEq H] {entries news : List (Entry κ H V)}

def insertNew (entries : List (Entry κ H V)) (entry : Entry κ H V) : List (Entry κ H V) :=
  if entry.key ∈ entries.map Entry.key then entries else entries ++ [entry]

def insertAll (entries news : List (Entry κ H V)) : List (Entry κ H V) :=
  news.foldl insertNew entries

/-- What an insert adds comes from the batch and has keys of its own. -/
theorem insertAll_eq_append
    (entries news : List (Entry κ H V)) :
    ∃ added, insertAll entries news = entries ++ added ∧ added.Sublist news ∧
      ∀ entry ∈ added, entry.key ∉ entries.map Entry.key := by
  induction news generalizing entries with
  | nil => exact ⟨[], by simp [insertAll], List.Sublist.slnil, nofun⟩
  | cons new news ih =>
      have hcons : insertAll entries (new :: news) = insertAll (insertNew entries new) news := rfl
      obtain ⟨added, heq, hsub, hfresh⟩ := ih (insertNew entries new)
      rw [hcons, heq]
      unfold insertNew at hfresh ⊢
      by_cases hkey : new.key ∈ entries.map Entry.key
      · rw [if_pos hkey] at hfresh ⊢
        exact ⟨added, rfl, hsub.cons new, hfresh⟩
      · rw [if_neg hkey] at hfresh ⊢
        refine ⟨new :: added, by simp, hsub.cons_cons new, ?_⟩
        intro entry hentry
        cases List.mem_cons.mp hentry with
        | inl hnew => rwa [hnew]
        | inr hadded =>
            intro hmem
            apply hfresh entry hadded
            rw [List.map_append]
            exact List.mem_append_left _ hmem

theorem onePerHeight_insertAll
    (honce : OnePerHeight entries) :
    OnePerHeight (insertAll entries news) := by
  induction news generalizing entries with
  | nil => exact honce
  | cons new news ih =>
      refine ih ?_
      unfold insertNew
      split
      · exact honce
      · next hkey =>
        unfold OnePerHeight
        rw [List.map_append, List.map_singleton, ← List.concat_eq_append]
        exact honce.concat hkey

end Insert

/-! ## The latest snapshot -/

section Latest

variable [DecidableEq κ] [LinearOrder H] {entries news : List (Entry κ H V)} {subject : κ}

def latest (entries : List (Entry κ H V)) (subject : κ) : Option (Entry κ H V) :=
  (entries.filter fun entry => entry.subject = subject).argmax Entry.height

theorem mem_of_latest
    {entry : Entry κ H V}
    (hlatest : latest entries subject = some entry) :
    entry ∈ entries ∧ entry.subject = subject := by
  have hmem := List.mem_filter.mp (List.argmax_mem hlatest)
  exact ⟨hmem.1, of_decide_eq_true hmem.2⟩

theorem height_le_of_latest
    {entry other : Entry κ H V}
    (hlatest : latest entries subject = some entry)
    (hother : other ∈ entries)
    (hsubject : other.subject = subject) :
    other.height ≤ entry.height :=
  List.le_of_mem_argmax (List.mem_filter.mpr ⟨hother, decide_eq_true hsubject⟩) hlatest

theorem latest_eq_none_iff :
    latest entries subject = none ↔ ∀ entry ∈ entries, entry.subject ≠ subject := by
  unfold latest
  rw [List.argmax_eq_none, List.filter_eq_nil_iff]
  simp

/-- Every snapshot of the subject lies below the height. -/
def Below (entries : List (Entry κ H V)) (subject : κ) (height : H) : Prop :=
  ∀ entry ∈ latest entries subject, entry.height < height

instance (entries : List (Entry κ H V)) (subject : κ) (height : H) :
    Decidable (Below entries subject height) :=
  match hlatest : latest entries subject with
  | none => isTrue (by simp [Below, hlatest])
  | some entry => decidable_of_iff (entry.height < height) (by simp [Below, hlatest])

theorem latest_concat_of_ne
    {entry : Entry κ H V}
    (hsubject : entry.subject ≠ subject) :
    latest (entries ++ [entry]) subject = latest entries subject := by
  unfold latest
  rw [List.filter_append, List.filter_singleton, decide_eq_false hsubject, cond_false,
    List.append_nil]

theorem latest_concat_of_eq
    {entry : Entry κ H V}
    (hsubject : entry.subject = subject) :
    latest (entries ++ [entry]) subject =
      if Below entries subject entry.height then some entry else latest entries subject := by
  have hconcat : latest (entries ++ [entry]) subject =
      Option.casesOn (latest entries subject) (some entry) fun last =>
        if last.height < entry.height then some entry else some last := by
    unfold latest
    rw [List.filter_append, List.filter_singleton, decide_eq_true hsubject, cond_true,
      List.argmax_concat]
  rw [hconcat]
  cases hlatest : latest entries subject with
  | none =>
      have hbelow : Below entries subject entry.height := by simp [Below, hlatest]
      rw [if_pos hbelow]
  | some last =>
      have hiff : Below entries subject entry.height ↔ last.height < entry.height := by
        simp [Below, hlatest]
      simp only [hiff]

variable (entries subject) in
theorem latest_insertNew
    (entry : Entry κ H V) :
    latest (insertNew entries entry) subject =
      if entry.subject = subject ∧ Below entries subject entry.height then some entry
      else latest entries subject := by
  unfold insertNew
  by_cases hkey : entry.key ∈ entries.map Entry.key
  · obtain ⟨old, hold, heq⟩ := List.mem_map.mp hkey
    have hnot : ¬ (entry.subject = subject ∧ Below entries subject entry.height) := by
      rintro ⟨hsubject, hbelow⟩
      have hsame : old.subject = subject := (congrArg Prod.fst heq).trans hsubject
      have hheight : old.height = entry.height := congrArg Prod.snd heq
      cases hlatest : latest entries subject with
      | none => exact latest_eq_none_iff.mp hlatest old hold hsame
      | some last =>
          have hle := height_le_of_latest hlatest hold hsame
          have hlt := hbelow last hlatest
          rw [hheight] at hle
          exact absurd hlt (not_lt.mpr hle)
    rw [if_pos hkey, if_neg hnot]
  · rw [if_neg hkey]
    by_cases hsubject : entry.subject = subject
    · rw [latest_concat_of_eq hsubject]
      simp only [hsubject, true_and]
    · rw [latest_concat_of_ne hsubject, if_neg fun h => hsubject h.1]

variable (entries subject) in
/-- Of a batch at one height the first snapshot of a subject counts. -/
theorem latest_insertAll
    {height : H}
    (hheight : ∀ new ∈ news, new.height = height) :
    latest (insertAll entries news) subject =
      if Below entries subject height then
        (news.find? fun new => new.subject = subject).or (latest entries subject)
      else latest entries subject := by
  induction news generalizing entries with
  | nil => simp [insertAll]
  | cons new news ih =>
      have hcons : insertAll entries (new :: news) = insertAll (insertNew entries new) news := rfl
      have hnew := hheight new List.mem_cons_self
      have hinsert := latest_insertNew entries subject new
      rw [hnew] at hinsert
      rw [hcons, ih _ fun later hlater => hheight later (List.mem_cons_of_mem _ hlater)]
      by_cases hbelow : Below entries subject height
      · by_cases hsubject : new.subject = subject
        · rw [if_pos ⟨hsubject, hbelow⟩] at hinsert
          have hnot : ¬ Below (insertNew entries new) subject height := by
            intro hagain
            exact absurd (hagain new hinsert) (by simp [hnew])
          rw [if_neg hnot, if_pos hbelow, hinsert, List.find?_cons, decide_eq_true hsubject]
          rfl
        · rw [if_neg fun h => hsubject h.1] at hinsert
          have hsame : Below (insertNew entries new) subject height := by
            unfold Below
            rwa [hinsert]
          rw [if_pos hsame, if_pos hbelow, hinsert, List.find?_cons, decide_eq_false hsubject]
      · rw [if_neg fun h => hbelow h.2] at hinsert
        have hsame : ¬ Below (insertNew entries new) subject height := by
          unfold Below
          rwa [hinsert]
        rw [if_neg hsame, if_neg hbelow, hinsert]

/-! ## Only changes are recorded -/

/-- Snapshots of a subject between which it has no other differ. -/
def ChangesOnly (entries : List (Entry κ H V)) : Prop :=
  ∀ earlier ∈ entries, ∀ later ∈ entries, earlier.subject = later.subject →
    earlier.height < later.height →
    (∀ between ∈ entries, between.subject = earlier.subject →
      ¬ (earlier.height < between.height ∧ between.height < later.height)) →
    earlier.value ≠ later.value

/-- A batch at the greatest height so far, each of whose values differs from the latest
one before it. -/
theorem changesOnly_insertAll
    {height : H}
    (honce : OnePerHeight entries)
    (hchanges : ChangesOnly entries)
    (hbound : ∀ entry ∈ entries, entry.height ≤ height)
    (hheight : ∀ new ∈ news, new.height = height)
    (hchanged : ∀ new ∈ news, ∀ entry ∈ latest entries new.subject, entry.value ≠ new.value) :
    ChangesOnly (insertAll entries news) := by
  obtain ⟨added, heq, hsub, hfresh⟩ := insertAll_eq_append entries news
  have hall : ∀ entry ∈ insertAll entries news, entry.height ≤ height := by
    intro entry hentry
    rw [heq, List.mem_append] at hentry
    cases hentry with
    | inl hold => exact hbound entry hold
    | inr hadded => exact (hheight entry (hsub.subset hadded)).le
  intro earlier hearlier later hlater hsubject hlt hbetween
  have hkept : ∀ entry ∈ insertAll entries news, entry.height < height → entry ∈ entries := by
    intro entry hentry hbelow
    rw [heq, List.mem_append] at hentry
    cases hentry with
    | inl hold => exact hold
    | inr hadded => exact absurd (hheight entry (hsub.subset hadded)) hbelow.ne
  have hsubset : ∀ entry ∈ entries, entry ∈ insertAll entries news := by
    intro entry hentry
    rw [heq]
    exact List.mem_append_left _ hentry
  have hearlier' := hkept earlier hearlier (hlt.trans_le (hall later hlater))
  rw [heq, List.mem_append] at hlater
  cases hlater with
  | inl hold =>
      exact hchanges earlier hearlier' later hold hsubject hlt fun between hmem =>
        hbetween between (hsubset between hmem)
  | inr hadded =>
      have hnew := hsub.subset hadded
      have hlaterHeight := hheight later hnew
      cases hlatest : latest entries later.subject with
      | none => exact absurd hsubject (latest_eq_none_iff.mp hlatest earlier hearlier')
      | some last =>
          have hlast := mem_of_latest hlatest
          have hle := height_le_of_latest hlatest hearlier' hsubject
          have hbelow : last.height < later.height := by
            refine lt_of_le_of_ne ((hbound last hlast.1).trans_eq hlaterHeight.symm) fun hsame => ?_
            have hkey : last.key = later.key := Prod.ext hlast.2 hsame
            exact hfresh later hadded (hkey ▸ List.mem_map_of_mem hlast.1)
          have hheights : earlier.height = last.height := by
            refine le_antisymm hle (le_of_not_gt fun hgt => ?_)
            exact hbetween last (hsubset last hlast.1) (hlast.2.trans hsubject.symm) ⟨hgt, hbelow⟩
          have hkeys : earlier.key = last.key :=
            Prod.ext (hsubject.trans hlast.2.symm) hheights
          have hsame : earlier = last :=
            List.inj_on_of_nodup_map honce hearlier' hlast.1 hkeys
          rw [hsame]
          exact hchanged later hnew last hlatest

end Latest

end SnapshotHistory
