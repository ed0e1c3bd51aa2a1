import LamTo.Model.Backups

/-!
# What a drill restores

A drill is a backup that succeeds and a restore of its manifest that succeeds, with any loss of
stored objects between the two. `sources` is what the sources held at their turn of the backup.

With the local storage every failed read becomes an empty file and the manifest names the key that
was asked for, also when the save took another one: an older file at a backup key is what comes
back. With a bucket a copy of what cannot be read raises, and what comes back is the newest copy
at the backup key. Both are characterised exactly.

SOURCE: src/lamto/documents/management/commands/backup_objects.py:57-219,
restore_object_backup.py:40-93
-/

set_option autoImplicit false

namespace LamTo.Analysis

open LamTo.Library LamTo.Model

theorem destKey_ne_nil (destPrefix : Text) (o : StoredObject) : destKey destPrefix o ≠ [] := by
  simp [destKey]

theorem copyKey_entryOf (destPrefix : Text) (o : StoredObject) :
    copyKey (entryOf destPrefix o) = destKey destPrefix o := if_neg (destKey_ne_nil destPrefix o)

/-- The name is under a prefix. -/
def Under (dir name : Text) : Prop := dir ++ ['/'] <+: name

theorem under_targetKey (dir : Text) (e : BackupEntry) : Under dir (targetKey dir e) :=
  ⟨e.sha256 ++ '/' :: e.sourceKey, by simp [targetKey]⟩

/-! ## The local storage -/

section Local

variable {R : LocalRules} {O : BackupOptions} {s t u : LocalStorage}

/-- Nothing that is there is written. -/
def KeepsFiles (s t : LocalStorage) : Prop := ∀ name, s name ≠ none → t name = s name

theorem KeepsFiles.refl (s : LocalStorage) : KeepsFiles s s := fun _ _ => rfl

theorem KeepsFiles.trans (h : KeepsFiles s t) (h' : KeepsFiles t u) : KeepsFiles s u := fun name hname =>
  (h' name (by rw [h name hname]; exact hname)).trans (h name hname)

/-- **A save writes a free name**: the one that was asked for, or another in its directory. -/
theorem save_eq_ok (name : Text) (data : Contents) (free : Text) :
    s.save R name data = .ok (free, t) ↔
      (if s name = none then some name else R.alternative s name) = some free ∧
        R.accepts free = true ∧ t = Function.update s free (some (some data)) := by
  unfold LocalStorage.save
  simp only [bind_eq_ok, orRaise_eq_ok, require_eq_ok]
  constructor
  · rintro ⟨name', hfree, _, haccepts, h⟩
    obtain ⟨rfl, rfl⟩ := Prod.mk.inj (Except.ok.inj h)
    exact ⟨hfree, haccepts, rfl⟩
  · rintro ⟨hfree, haccepts, rfl⟩
    exact ⟨free, hfree, (), haccepts, rfl⟩

theorem free_of_save {name free : Text} {data : Contents} (h : s.save R name data = .ok (free, t)) :
    s free = none := by
  obtain ⟨hfree, _⟩ := (save_eq_ok name data free).mp h
  split at hfree
  · next hnone => exact Option.some.inj hfree ▸ hnone
  · exact R.alternative_free s name free hfree

theorem keepsFiles_of_save {name free : Text} {data : Contents}
    (h : s.save R name data = .ok (free, t)) : KeepsFiles s t := by
  intro other hother
  have hnone := free_of_save h
  obtain ⟨_, _, rfl⟩ := (save_eq_ok name data free).mp h
  refine Function.update_of_ne ?_ _ _
  rintro rfl
  exact hother hnone

theorem read_of_save {name free : Text} {data : Contents} (h : s.save R name data = .ok (free, t)) :
    t free = some (some data) := by
  obtain ⟨_, _, rfl⟩ := (save_eq_ok name data free).mp h
  exact Function.update_self _ _ _

theorem under_of_save {dir name free : Text} {data : Contents}
    (h : s.save R name data = .ok (free, t)) (hunder : Under dir name) : Under dir free := by
  obtain ⟨hfree, _⟩ := (save_eq_ok name data free).mp h
  split at hfree
  · exact Option.some.inj hfree ▸ hunder
  · exact R.alternative_within s name free dir hfree hunder

/-- What a save leaves at the name that was asked for. -/
def copyAfter (s : LocalStorage) (name : Text) (data : Contents) : Option Contents :=
  match s name with
  | none => some data
  | some kept => kept

theorem at_name_of_save {name free : Text} {data : Contents}
    (h : s.save R name data = .ok (free, t)) : t name = some (copyAfter s name data) := by
  unfold copyAfter
  cases hname : s name with
  | none =>
    obtain ⟨hfree, _⟩ := (save_eq_ok name data free).mp h
    rw [if_pos hname] at hfree
    obtain rfl := Option.some.inj hfree
    exact read_of_save h
  | some kept =>
    rw [keepsFiles_of_save h name (by rw [hname]; exact Option.some_ne_none kept), hname]

/-- The storage when some of its files are gone. -/
def lose (lost : Text → Bool) (s : LocalStorage) : LocalStorage := fun name =>
  if lost name then none else s name

theorem read_lose (lost : Text → Bool) (name : Text) :
    (lose lost s).read name = if lost name then none else s.read name := by
  unfold lose LocalStorage.read
  dsimp only
  split
  · rfl
  · rfl

variable (R O)

/-- What the sources hold, each at its turn. -/
def sources : LocalStorage → List StoredObject → List (Option Contents)
  | _, [] => []
  | s, o :: os => s.read o.storageKey ::
      match s.backupOne R O o with
      | .ok (_, s') => sources s' os
      | .error _ => []

/-- An object at its turn: it can be read, and what is at its backup key then has the same bytes
and is not lost, or no copy that can be read is left and the source is not lost. -/
def TurnKeeps (lost : Text → Bool) (s : LocalStorage) (o : StoredObject) : Prop :=
  let dest := destKey (withoutSlash O.destPrefix) o
  ∃ data, s.read o.storageKey = some data ∧
    (lost dest = false ∧ copyAfter s dest data = some data ∨
      (lost dest = true ∨ copyAfter s dest data = none) ∧
        (lost o.storageKey = false ∨ data = []))

def TurnsKeep (lost : Text → Bool) : LocalStorage → List StoredObject → Prop
  | _, [] => True
  | s, o :: os => TurnKeeps O lost s o ∧
      match s.backupOne R O o with
      | .ok (_, s') => TurnsKeep lost s' os
      | .error _ => True

variable {R O}

theorem backupOne_eq_ok (hdry : O.dryRun = false) (o : StoredObject) (e : BackupEntry) :
    s.backupOne R O o = .ok (e, t) ↔ e = entryOf (withoutSlash O.destPrefix) o ∧
      ∃ free, s.save R (destKey (withoutSlash O.destPrefix) o)
        ((s.read o.storageKey).getD []) = .ok (free, t) := by
  unfold LocalStorage.backupOne
  rw [hdry]
  simp only [Bool.false_eq_true, if_false, bind_eq_ok]
  constructor
  · rintro ⟨⟨free, t'⟩, hsave, h⟩
    obtain ⟨rfl, rfl⟩ := Prod.mk.inj (Except.ok.inj h)
    exact ⟨rfl, free, hsave⟩
  · rintro ⟨rfl, free, hsave⟩
    exact ⟨(free, t), hsave, rfl⟩

/-- **What comes back of one object.** -/
theorem turn_iff (hdry : O.dryRun = false) (lost : Text → Bool) (o : StoredObject) (e : BackupEntry)
    (hturn : s.backupOne R O o = .ok (e, t)) (hlater : KeepsFiles t u) :
    s.read o.storageKey = some ((lose lost u).restoredBytes e) ↔ TurnKeeps O lost s o := by
  obtain ⟨rfl, free, hsave⟩ := (backupOne_eq_ok hdry o e).mp hturn
  unfold TurnKeeps
  cases hread : s.read o.storageKey with
  | none =>
    refine iff_of_false (fun h => by cases h) ?_
    rintro ⟨data, h, _⟩
    cases h
  | some data =>
    rw [hread, Option.getD_some] at hsave
    have hkept : ∀ name c, t name = some c → u.read name = c := fun name c hname => by
      rw [LocalStorage.read, hlater name (by rw [hname]; exact Option.some_ne_none c), hname]
      rfl
    have hsource : u.read o.storageKey = some data := by
      have hthere : s o.storageKey = some (some data) := Option.join_eq_some_iff.mp hread
      refine hkept _ _ ?_
      rw [keepsFiles_of_save hsave _ (by rw [hthere]; exact Option.some_ne_none _), hthere]
    have hcopy := hkept _ _ (at_name_of_save hsave)
    unfold LocalStorage.restoredBytes
    rw [copyKey_entryOf, read_lose, read_lose, hcopy]
    show _ = some (((if _ then none else _).orElse fun _ =>
      if lost o.storageKey = true then none else u.read o.storageKey).getD []) ↔ _
    rw [hsource]
    simp only [Option.some.injEq, exists_eq_left']
    cases lost (destKey (withoutSlash O.destPrefix) o) with
    | true =>
      cases lost o.storageKey with
      | true => simp
      | false => simp
    | false =>
      cases copyAfter s (destKey (withoutSlash O.destPrefix) o) data with
      | none =>
        cases lost o.storageKey with
        | true => simp
        | false => simp
      | some copy =>
        constructor
        · intro h
          exact .inl ⟨rfl, congrArg some h.symm⟩
        · rintro (⟨_, h⟩ | ⟨h | h, _⟩)
          · exact (Option.some.inj h).symm
          · cases h
          · cases h

/-- What comes back of all objects. -/
theorem turns_iff (hdry : O.dryRun = false) (lost : Text → Bool) (objects : List StoredObject)
    (entries : List BackupEntry) (h : turns (LocalStorage.backupOne R O) s objects = .ok (entries, t))
    (hlater : KeepsFiles t u) :
    sources R O s objects = entries.map (fun e => some ((lose lost u).restoredBytes e)) ↔
      TurnsKeep R O lost s objects := by
  induction objects generalizing s entries with
  | nil =>
    obtain ⟨rfl, _⟩ := turns_nil.mp h
    exact iff_of_true rfl trivial
  | cons o objects ih =>
    obtain ⟨e, s₁, entries', hturn, hrest, rfl⟩ := (turns_cons o).mp h
    have hkeeps : KeepsFiles s₁ t := turns_relates KeepsFiles KeepsFiles.refl
      (fun _ _ _ => KeepsFiles.trans) (fun v a b w hab => by
        obtain ⟨_, free, hsave⟩ := (backupOne_eq_ok hdry a b).mp hab
        exact keepsFiles_of_save hsave) hrest
    rw [sources, TurnsKeep, hturn, List.map_cons]
    dsimp only
    rw [List.cons.injEq, turn_iff hdry lost o e hturn (hkeeps.trans hlater),
      ih entries' hrest]

/-- What is restored for an entry depends on two names. -/
theorem restoredBytes_congr (e : BackupEntry) (hcopy : t (copyKey e) = s (copyKey e))
    (hsource : t e.sourceKey = s e.sourceKey) : t.restoredBytes e = s.restoredBytes e := by
  unfold LocalStorage.restoredBytes LocalStorage.read
  rw [hcopy, hsource]

/-- **What the restored files read.** -/
theorem restored_reads (dir : Text) (entries : List BackupEntry) (names : List Text)
    (hfresh : ∀ e ∈ entries, ¬ Under dir (copyKey e) ∧ ¬ Under dir e.sourceKey)
    (hsame : ∀ name, ¬ Under dir name → u name = s name)
    (h : turns (LocalStorage.restoreOne R O dir) u entries = .ok (names, t)) :
    names.map t.read = entries.map fun e => some (s.restoredBytes e) := by
  have hkeeps : ∀ {v w : LocalStorage} {e : BackupEntry} {free : Text},
      LocalStorage.restoreOne R O dir v e = .ok (free, w) →
        v.save R (targetKey dir e) (v.restoredBytes e) = .ok (free, w) := by
    intro v w e free hone
    obtain ⟨_, _, hsave⟩ := (bind_eq_ok _ _ _).mp hone
    exact hsave
  induction entries generalizing u names with
  | nil =>
    obtain ⟨rfl, _⟩ := turns_nil.mp h
    rfl
  | cons e entries ih =>
    obtain ⟨free, v, names', hone, hrest, rfl⟩ := (turns_cons e).mp h
    have hsave := hkeeps hone
    have hlater : KeepsFiles v t := turns_relates KeepsFiles KeepsFiles.refl
      (fun _ _ _ => KeepsFiles.trans) (fun _ _ _ _ hturn => keepsFiles_of_save (hkeeps hturn)) hrest
    obtain ⟨hcopy, hsource⟩ := hfresh e List.mem_cons_self
    have hbytes : u.restoredBytes e = s.restoredBytes e :=
      restoredBytes_congr e (hsame _ hcopy) (hsame _ hsource)
    have hread : t.read free = some (s.restoredBytes e) := by
      have hfree := read_of_save hsave
      rw [LocalStorage.read, hlater free (by rw [hfree]; exact Option.some_ne_none _), hfree, hbytes]
      rfl
    -- the save was under the prefix, so the rest reads what it would have read
    have hunder := under_of_save hsave (under_targetKey dir e)
    have hkept : ∀ name, ¬ Under dir name → v name = s name := by
      intro name hname
      obtain ⟨_, _, rfl⟩ := (save_eq_ok _ _ _).mp hsave
      have hne : name ≠ free := fun heq => hname (heq ▸ hunder)
      rw [Function.update_of_ne hne, hsame name hname]
    rw [List.map_cons, List.map_cons, hread,
      ih names' (fun e' he' => hfresh e' (List.mem_cons_of_mem e he')) hkept hrest]

/-- A backup with the local storage and a restore of it that succeed. -/
structure LocalDrill (R : LocalRules) (O : BackupOptions) (objects : List StoredObject)
    (s : LocalStorage) where
  entries : List BackupEntry
  saved : LocalStorage
  lost : Text → Bool
  restorePrefix : Text
  names : List Text
  restored : LocalStorage
  wet : O.dryRun = false
  backup : s.backupObjects R O objects = .ok (entries, saved)
  restore : (lose lost saved).restoreObjectBackup R O restorePrefix entries = .ok (names, restored)
  fresh : ∀ e ∈ entries, ¬ Under (withoutSlash restorePrefix) (copyKey e) ∧
    ¬ Under (withoutSlash restorePrefix) e.sourceKey

theorem LocalDrill.restores_iff {objects : List StoredObject} (d : LocalDrill R O objects s) :
    d.names.map d.restored.read = sources R O s objects ↔ TurnsKeep R O d.lost s objects := by
  obtain ⟨_, _, hbackup⟩ := (bind_eq_ok _ _ _).mp d.backup
  obtain ⟨⟨entries, t⟩, hturns, hbackup⟩ := (bind_eq_ok _ _ _).mp hbackup
  dsimp only at hbackup
  rw [d.wet, if_neg Bool.false_ne_true] at hbackup
  obtain ⟨⟨marker, t'⟩, hmarker, hbackup⟩ := (bind_eq_ok _ _ _).mp hbackup
  obtain ⟨rfl, rfl⟩ := Prod.mk.inj (Except.ok.inj hbackup)
  obtain ⟨_, _, hrestore⟩ := (bind_eq_ok _ _ _).mp d.restore
  rw [restored_reads _ d.entries d.names d.fresh (fun _ _ => rfl) hrestore, eq_comm]
  exact turns_iff d.wet d.lost objects _ hturns (keepsFiles_of_save hmarker)

end Local

/-! ## The versioned bucket -/

section Bucket

variable {R : BucketRules} {O : BackupOptions} {s t u : BucketStore} {bucket : Text}

theorem latest_of_put {destBucket key : Text} {data : Contents}
    (h : s.put R destBucket key data = .ok t) (b k : Text) :
    t.latest b k = if b = destBucket ∧ k = key then some data else s.latest b k := by
  unfold BucketStore.put at h
  split at h
  · cases h
    unfold BucketStore.latest
    by_cases hb : b = destBucket
    · subst hb
      by_cases hk : k = key
      · subst hk
        rw [Function.update_self, Function.update_self, if_pos ⟨rfl, rfl⟩]
        rfl
      · rw [Function.update_self, Function.update_of_ne hk, if_neg fun h => hk h.2]
    · rw [Function.update_of_ne hb, if_neg fun h => hb h.1]
  · cases h

theorem copyObject_eq_ok {key destBucket destKey : Text} {versionId : Option Text}
    {data : Contents} :
    s.copyObject R bucket key versionId destBucket destKey = .ok (data, t) ↔
      s.source bucket key versionId = some data ∧ s.put R destBucket destKey data = .ok t := by
  unfold BucketStore.copyObject
  simp only [bind_eq_ok, orRaise_eq_ok]
  constructor
  · rintro ⟨data', hsource, t', hput, h⟩
    obtain ⟨rfl, rfl⟩ := Prod.mk.inj (Except.ok.inj h)
    exact ⟨hsource, hput⟩
  · rintro ⟨hsource, hput⟩
    exact ⟨data, hsource, t, hput, rfl⟩

/-- The last of the values written to a key, `v` before them. -/
def lastWrite (k : Text) : Option Contents → List (Text × Option Contents) → Option Contents
  | v, [] => v
  | v, w :: ws => lastWrite k (if w.1 = k then w.2 else v) ws

/-- Where all values of a key are one, it is the last. -/
theorem lastWrite_eq (k : Text) (v x : Option Contents) (ws : List (Text × Option Contents))
    (hall : ∀ w ∈ ws, w.1 = k → w.2 = x) (hsome : v = x ∨ ∃ w ∈ ws, w.1 = k) :
    lastWrite k v ws = x := by
  induction ws generalizing v with
  | nil =>
    rcases hsome with rfl | ⟨w, hw, _⟩
    · rfl
    · cases hw
  | cons w ws ih =>
    refine ih _ (fun w' hw' => hall w' (List.mem_cons_of_mem w hw')) ?_
    by_cases hw : w.1 = k
    · rw [if_pos hw]
      exact .inl (hall w List.mem_cons_self hw)
    · rw [if_neg hw]
      rcases hsome with rfl | ⟨w', hw', hk⟩
      · exact .inl rfl
      · rcases List.mem_cons.mp hw' with rfl | hw'
        · exact absurd hk hw
        · exact .inr ⟨w', hw', hk⟩

variable (R O bucket)

/-- The writes of the copies, each with what its source held. -/
def copies : BucketStore → List StoredObject → List (BackupEntry × Option Contents)
  | _, [] => []
  | s, o :: os =>
    (entryOf (withoutSlash O.destPrefix) o,
      s.source bucket o.storageKey (BucketStore.copiedVersion o.providerVersionId)) ::
      match s.backupOne R O bucket o with
      | .ok (_, s') => copies s' os
      | .error _ => []

variable {R O bucket}

/-- **What the copies leave.** -/
theorem latest_of_backup (hdry : O.dryRun = false) (objects : List StoredObject)
    (entries : List BackupEntry)
    (h : turns (BucketStore.backupOne R O bucket) s objects = .ok (entries, t)) :
    (copies R O bucket s objects).map Prod.fst = entries ∧
      ∀ k, t.latest bucket k = lastWrite k (s.latest bucket k)
        ((copies R O bucket s objects).map fun c => (c.1.destKey, c.2)) := by
  induction objects generalizing s entries with
  | nil =>
    obtain ⟨rfl, rfl⟩ := turns_nil.mp h
    exact ⟨rfl, fun _ => rfl⟩
  | cons o objects ih =>
    obtain ⟨e, s₁, entries', hturn, hrest, rfl⟩ := (turns_cons o).mp h
    obtain ⟨hentries, hlatest⟩ := ih entries' hrest
    have hone := hturn
    unfold BucketStore.backupOne at hone
    rw [hdry] at hone
    simp only [Bool.false_eq_true, if_false] at hone
    obtain ⟨⟨data, s₂⟩, hcopy, hone⟩ := (bind_eq_ok _ _ _).mp hone
    obtain ⟨rfl, rfl⟩ := Prod.mk.inj (Except.ok.inj hone)
    obtain ⟨hsource, hput⟩ := copyObject_eq_ok.mp hcopy
    rw [copies, hturn]
    dsimp only
    refine ⟨by rw [List.map_cons, hentries], fun k => ?_⟩
    rw [hlatest k, List.map_cons, lastWrite, latest_of_put hput, hsource]
    congr 1
    simp only [true_and, eq_comm, entryOf]

/-- Keys of a bucket that are deleted have a delete marker. -/
def deleteObjects (lost : Text → Bool) (bucket : Text) (s : BucketStore) : BucketStore := fun b k =>
  if b = bucket ∧ lost k = true then ([], none) :: s b k else s b k

theorem latest_deleteObjects (lost : Text → Bool) (k : Text) :
    (deleteObjects lost bucket s).latest bucket k =
      if lost k = true then none else s.latest bucket k := by
  unfold deleteObjects BucketStore.latest
  dsimp only
  by_cases hlost : lost k = true
  · rw [if_pos ⟨rfl, hlost⟩, if_pos hlost]
    rfl
  · rw [if_neg fun h => hlost h.2, if_neg hlost]

/-- **What the restore copies and leaves.** -/
theorem latest_of_restore (dir destBucket : Text) (entries : List BackupEntry)
    (written : List Contents) (hfresh : ∀ e ∈ entries, ¬ Under dir (copyKey e))
    (hsame : ∀ key, ¬ Under dir key → u.latest bucket key = s.latest bucket key)
    (h : turns (BucketStore.restoreOne R bucket destBucket dir) u entries = .ok (written, t)) :
    written.map some = entries.map (fun e => s.latest bucket (copyKey e)) ∧
      ∀ k, t.latest destBucket k = lastWrite k (u.latest destBucket k)
        (entries.map fun e => (targetKey dir e, s.latest bucket (copyKey e))) := by
  induction entries generalizing u written with
  | nil =>
    obtain ⟨rfl, rfl⟩ := turns_nil.mp h
    exact ⟨rfl, fun _ => rfl⟩
  | cons e entries ih =>
    obtain ⟨data, v, written', hturn, hrest, rfl⟩ := (turns_cons e).mp h
    obtain ⟨hsource, hput⟩ := copyObject_eq_ok.mp hturn
    have hdata : s.latest bucket (copyKey e) = some data :=
      (hsame _ (hfresh e List.mem_cons_self)).symm.trans hsource
    have hkept : ∀ key, ¬ Under dir key → v.latest bucket key = s.latest bucket key := by
      intro key hkey
      rw [latest_of_put hput, if_neg, hsame key hkey]
      rintro ⟨_, rfl⟩
      exact hkey (under_targetKey dir e)
    obtain ⟨hwritten, hlatest⟩ := ih written'
      (fun e' he' => hfresh e' (List.mem_cons_of_mem e he')) hkept hrest
    refine ⟨by rw [List.map_cons, List.map_cons, hwritten, hdata], fun k => ?_⟩
    rw [hlatest k, List.map_cons, lastWrite, latest_of_put hput, hdata]
    congr 1
    simp only [true_and, eq_comm]

/-- A backup of a bucket and a restore of it that succeed. -/
structure BucketDrill (R : BucketRules) (O : BackupOptions) (bucket : Text) (status : Option Text)
    (objects : List StoredObject) (s : BucketStore) where
  entries : List BackupEntry
  saved : BucketStore
  lost : Text → Bool
  destBucket : Text
  restorePrefix : Text
  written : List Contents
  restored : BucketStore
  wet : O.dryRun = false
  backup : s.backupObjects R O bucket status objects = .ok (entries, saved)
  restore : (deleteObjects lost bucket saved).restoreObjectBackup R bucket destBucket restorePrefix
    entries = .ok (written, restored)
  fresh : ∀ e ∈ entries, ¬ Under (withoutSlash restorePrefix) (copyKey e)

/-- **What a backup of a bucket needs**: objects that share a backup key or a restore key have the
same bytes, and one at the key of the manifest object has the bytes of the manifest. -/
structure Unclashed (O : BackupOptions) (dir : Text) (C : List (BackupEntry × Option Contents)) :
    Prop where
  copy : ∀ p ∈ C, ∀ q ∈ C, p.1.destKey = q.1.destKey → p.2 = q.2
  target : ∀ p ∈ C, ∀ q ∈ C, targetKey dir p.1 = targetKey dir q.1 → p.2 = q.2
  marker : ∀ p ∈ C, p.1.destKey = O.markerKey → p.2 = some (O.manifestBody (C.map Prod.fst))

theorem copyKey_of_mem_copies (objects : List StoredObject) {c : BackupEntry × Option Contents}
    (hc : c ∈ copies R O bucket s objects) : copyKey c.1 = c.1.destKey := by
  induction objects generalizing s with
  | nil => cases hc
  | cons o objects ih =>
    rcases List.mem_cons.mp hc with rfl | hc
    · exact copyKey_entryOf _ o
    · cases hturn : s.backupOne R O bucket o with
      | ok turn =>
        rw [hturn] at hc
        exact ih hc
      | error =>
        rw [hturn] at hc
        cases hc

/-- The bucket that is restored to. -/
def BucketDrill.dest {status : Option Text} {objects : List StoredObject}
    (d : BucketDrill R O bucket status objects s) : Text :=
  if d.destBucket = [] then bucket else d.destBucket

/-- The copies, and what the backup and the loss leave at their keys. -/
theorem BucketDrill.left {status : Option Text} {objects : List StoredObject}
    (d : BucketDrill R O bucket status objects s) :
    (copies R O bucket s objects).map Prod.fst = d.entries ∧
      ∀ k, (deleteObjects d.lost bucket d.saved).latest bucket k =
        if d.lost k = true then none
        else if k = O.markerKey then some (O.manifestBody d.entries)
        else lastWrite k (s.latest bucket k)
          ((copies R O bucket s objects).map fun c => (c.1.destKey, c.2)) := by
  obtain ⟨_, _, hbackup⟩ := (bind_eq_ok _ _ _).mp d.backup
  obtain ⟨⟨entries, t⟩, hturns, hbackup⟩ := (bind_eq_ok _ _ _).mp hbackup
  dsimp only at hbackup
  rw [d.wet, if_neg Bool.false_ne_true] at hbackup
  obtain ⟨t', hput, hbackup⟩ := (bind_eq_ok _ _ _).mp hbackup
  obtain ⟨rfl, rfl⟩ := Prod.mk.inj (Except.ok.inj hbackup)
  obtain ⟨hentries, hlatest⟩ := latest_of_backup d.wet objects _ hturns
  refine ⟨hentries, fun k => ?_⟩
  rw [latest_deleteObjects, latest_of_put hput, hlatest k]
  simp only [true_and]

theorem BucketDrill.restores_iff {status : Option Text} {objects : List StoredObject}
    (d : BucketDrill R O bucket status objects s) :
    (d.written.map some = (copies R O bucket s objects).map Prod.snd ∧
        d.entries.map (fun e =>
          d.restored.latest d.dest (targetKey (withoutSlash d.restorePrefix) e)) =
          (copies R O bucket s objects).map Prod.snd) ↔
      Unclashed O (withoutSlash d.restorePrefix) (copies R O bucket s objects) := by
  obtain ⟨hentries, hleft⟩ := d.left
  obtain ⟨_, _, hrestore⟩ := (bind_eq_ok _ _ _).mp d.restore
  obtain ⟨hwritten, hrestored⟩ := latest_of_restore _ _ d.entries d.written d.fresh
    (fun _ _ => rfl) hrestore
  have hkey : ∀ c ∈ copies R O bucket s objects, copyKey c.1 = c.1.destKey :=
    fun c hc => copyKey_of_mem_copies objects hc
  change ∀ k, d.restored.latest d.dest k = _ at hrestored
  -- the restore read every backup key, so none of them was lost
  have hnot : ∀ c ∈ copies R O bucket s objects, d.lost c.1.destKey = false := by
    intro c hc
    have hmem : (deleteObjects d.lost bucket d.saved).latest bucket (copyKey c.1) ∈
        d.written.map some := by
      rw [hwritten]
      exact List.mem_map_of_mem (hentries ▸ List.mem_map_of_mem hc)
    obtain ⟨data, _, hdata⟩ := List.mem_map.mp hmem
    rw [hkey c hc, hleft] at hdata
    cases hlost : d.lost c.1.destKey with
    | false => rfl
    | true =>
      rw [hlost, if_pos rfl] at hdata
      cases hdata
  have hcopy : ∀ c ∈ copies R O bucket s objects,
      (deleteObjects d.lost bucket d.saved).latest bucket (copyKey c.1) =
        if c.1.destKey = O.markerKey then some (O.manifestBody d.entries)
        else lastWrite c.1.destKey (s.latest bucket c.1.destKey)
          ((copies R O bucket s objects).map fun c => (c.1.destKey, c.2)) := fun c hc => by
    rw [hkey c hc, hleft, hnot c hc, if_neg Bool.false_ne_true]
  rw [hwritten]
  simp only [← hentries, List.map_map, List.map_inj_left, Function.comp_apply]
  constructor
  · rintro ⟨hcopied, hthere⟩
    have hat : ∀ c ∈ copies R O bucket s objects,
        (deleteObjects d.lost bucket d.saved).latest bucket c.1.destKey = c.2 :=
      fun c hc => by rw [← hkey c hc, hcopied c hc]
    refine ⟨fun p hp q hq hsame => ?_, fun p hp q hq hsame => ?_, fun p hp hmarker => ?_⟩
    · rw [← hat p hp, ← hat q hq, hsame]
    · rw [← hthere p hp, ← hthere q hq, hsame]
    · rw [← hcopied p hp, hcopy p hp, if_pos hmarker, hentries]
  · rintro ⟨hsamecopy, hsametarget, hmarker⟩
    have hcopied : ∀ c ∈ copies R O bucket s objects,
        (deleteObjects d.lost bucket d.saved).latest bucket (copyKey c.1) = c.2 := by
      intro c hc
      rw [hcopy c hc]
      split
      · next hkey => rw [hmarker c hc hkey, hentries]
      · refine lastWrite_eq _ _ _ _ (fun w hw hsame => ?_)
          (.inr ⟨_, List.mem_map_of_mem hc, rfl⟩)
        obtain ⟨c', hc', rfl⟩ := List.mem_map.mp hw
        exact hsamecopy c' hc' c hc hsame
    refine ⟨hcopied, fun c hc => ?_⟩
    rw [hrestored]
    refine lastWrite_eq _ _ _ _ (fun w hw hsame => ?_)
      (.inr ⟨_, List.mem_map_of_mem (hentries ▸ List.mem_map_of_mem hc), rfl⟩)
    obtain ⟨e', he', rfl⟩ := List.mem_map.mp hw
    obtain ⟨c', hc', rfl⟩ := List.mem_map.mp (hentries ▸ he')
    exact (hcopied c' hc').trans (hsametarget c' hc' c hc hsame)

end Bucket

/-! ## Both storages -/

/-- **What comes back.** With the local storage the restored files are what the sources held
exactly when each object could be read at its turn, and what was at its backup key then has the
same bytes and stayed, or no copy there can be read and the source stayed. With a bucket exactly
when objects that share a key have the same bytes and none is under the manifest object. -/
theorem backups_restored_iff (O : BackupOptions) (objects : List StoredObject) :
    (∀ (R : LocalRules) (s : LocalStorage) (d : LocalDrill R O objects s),
      d.names.map d.restored.read = sources R O s objects ↔ TurnsKeep R O d.lost s objects) ∧
    ∀ (R : BucketRules) (bucket : Text) (status : Option Text) (s : BucketStore)
        (d : BucketDrill R O bucket status objects s),
      (d.written.map some = (copies R O bucket s objects).map Prod.snd ∧
        d.entries.map (fun e =>
          d.restored.latest d.dest (targetKey (withoutSlash d.restorePrefix) e)) =
          (copies R O bucket s objects).map Prod.snd) ↔
      Unclashed O (withoutSlash d.restorePrefix) (copies R O bucket s objects) :=
  ⟨fun _ _ d => d.restores_iff, fun _ _ _ _ d => d.restores_iff⟩

def sampleRules : LocalRules where
  accepts _ := true
  alternative s name := if s (name ++ "_1".toList) = none then some (name ++ "_1".toList) else none
  alternative_free s name other h := by
    split at h
    · next hfree => exact Option.some.inj h ▸ hfree
    · cases h
  alternative_within s name other dir h hunder := by
    split at h
    · obtain rfl := Option.some.inj h
      exact hunder.trans (List.prefix_append _ _)
    · cases h

def sampleOptions : BackupOptions where
  allowFs := true
  sse := "AES256".toList
  destPrefix := "object-backups".toList
  dryRun := false
  markerKey := "ops/backups/markers/1.json".toList
  manifestBody _ := [123, 125]

def sampleObject : StoredObject :=
  ⟨"minutes.pdf".toList, [], "e3b0".toList, .documentVersion 1 "minutes.pdf".toList⟩

def sampleEntry : BackupEntry := entryOf "object-backups".toList sampleObject

/-- One object whose bytes are `found`, backed up and restored, with nothing lost. -/
def sampleDrill (found : Option Contents) : LocalDrill sampleRules sampleOptions [sampleObject]
    (Function.update (fun _ => none) sampleObject.storageKey (found.map some)) where
  entries := [sampleEntry]
  saved := Function.update (Function.update (Function.update (fun _ => none)
    sampleObject.storageKey (found.map some)) sampleEntry.destKey (some (some (found.getD []))))
    sampleOptions.markerKey (some (some [123, 125]))
  lost _ := false
  restorePrefix := "restore-drill/".toList
  names := [targetKey "restore-drill".toList sampleEntry]
  restored := Function.update (Function.update (Function.update (Function.update (fun _ => none)
    sampleObject.storageKey (found.map some)) sampleEntry.destKey (some (some (found.getD []))))
    sampleOptions.markerKey (some (some [123, 125])))
    (targetKey "restore-drill".toList sampleEntry) (some (some (found.getD [])))
  wet := rfl
  backup := by
    cases found with
    | none => rfl
    | some data => rfl
  restore := by
    cases found with
    | none => rfl
    | some data => rfl
  fresh := by
    intro e he
    obtain rfl := List.mem_singleton.mp he
    unfold Under
    decide

def sampleBuckets : BucketStore := fun b k =>
  if b = "lamto".toList ∧ k = sampleObject.storageKey then [([], some [37])] else []

def sampleBucketRules : BucketRules where
  accepts _ _ := true
  newVersionId _ _ _ := []

/-- What a backup leaves there. -/
def sampleSaved : BucketStore := Function.update
  (Function.update sampleBuckets "lamto".toList
    (Function.update (sampleBuckets "lamto".toList) sampleEntry.destKey [([], some [37])]))
  "lamto".toList
  (Function.update (Function.update (sampleBuckets "lamto".toList) sampleEntry.destKey
    [([], some [37])]) sampleOptions.markerKey [([], some [123, 125])])

/-- The same in a bucket. -/
def sampleBucketDrill : BucketDrill sampleBucketRules sampleOptions "lamto".toList
    (some "Enabled".toList) [sampleObject] sampleBuckets where
  entries := [sampleEntry]
  saved := sampleSaved
  lost _ := false
  destBucket := "drill".toList
  restorePrefix := "restore-drill".toList
  written := [[37]]
  restored :=
    let left := deleteObjects (fun _ => false) "lamto".toList sampleSaved
    Function.update left "drill".toList (Function.update (left "drill".toList)
      (targetKey "restore-drill".toList sampleEntry) [([], some [37])])
  wet := rfl
  backup := rfl
  restore := rfl
  fresh := by
    intro e he
    obtain rfl := List.mem_singleton.mp he
    unfold Under
    decide

/-- An object that is there comes back, and one in a bucket does. -/
theorem backups_restored_iff_kept :
    (sampleDrill (some [37])).names.map (sampleDrill (some [37])).restored.read =
        sources sampleRules sampleOptions
          (Function.update (fun _ => none) sampleObject.storageKey (some (some [37])))
          [sampleObject] ∧
      Unclashed sampleOptions "restore-drill".toList
        (copies sampleBucketRules sampleOptions "lamto".toList sampleBuckets [sampleObject]) :=
  ⟨((backups_restored_iff _ _).1 _ _ (sampleDrill (some [37]))).mpr
      ⟨⟨[37], rfl, .inl ⟨rfl, rfl⟩⟩, trivial⟩,
    ((backups_restored_iff _ _).2 _ _ _ _ sampleBucketDrill).mp ⟨rfl, rfl⟩⟩

/-- A row without its object: both commands succeed, and what comes back is an empty file. -/
theorem backup_restores_missing :
    ¬ ∀ (R : LocalRules) (O : BackupOptions) (objects : List StoredObject) (s : LocalStorage)
      (d : LocalDrill R O objects s), d.names.map d.restored.read = sources R O s objects := by
  intro hall
  have hread := hall _ _ _ _ (sampleDrill none)
  have hback : (sampleDrill none).names.map (sampleDrill none).restored.read = [some []] := rfl
  rw [hback] at hread
  cases hread

end LamTo.Analysis
