import LamTo.Library.Turns
import LamTo.Model.ChainClient
import Mathlib.Data.List.DropRight
import Mathlib.Logic.Function.Basic

/-!
# Backups of the private objects

The embedding of the commands `backup_objects` and `restore_object_backup`. Both run over a list
and either copy objects within a versioned bucket, where a copy of what cannot be read raises, or
read and save files of the local storage, where what cannot be read is replaced and a save never
overwrites.

* A bucket keeps the versions of a key newest first; a version without contents is a delete
  marker.
* A file that is there and cannot be read is `some none`. How the local storage picks another name
  is a parameter, with what its documentation says of it. Which names either storage accepts is
  one too.
* The JSON of the manifest and its signature are not modelled; `restore_object_backup` checks
  neither the signature nor a hash. What a restore writes for each entry is returned.

SOURCE: src/lamto/documents/management/commands/{backup_objects,restore_object_backup}.py
-/

set_option autoImplicit false

namespace LamTo.Model

open LamTo.Library

abbrev Contents := List UInt8

/-- A `CommandError`, two of them with what their texts quote, or an error of the storage. -/
inductive BackupError where
  | command (message : String)
  | unableToReadVersioning
  | versioningNotEnabled (bucket status : Text)
  | storage
deriving DecidableEq

/-! ## What is backed up -/

inductive ObjectRow where
  | documentVersion (pk : ℕ) (filename : Text)
  | quarantinedUpload (pk : ℕ)
deriving DecidableEq

structure StoredObject where
  storageKey : Text
  providerVersionId : Text
  sha256 : Text
  row : ObjectRow
deriving DecidableEq

structure VersionRow where
  storageKey : Text
  providerVersionId : Text
  filename : Text
  sha256 : Text

structure QuarantineRow where
  storageKey : Option Text
  providerVersionId : Text
  sha256 : Text

/-- The rows of both loops, those without an object left out. SOURCE: backup_objects.py:57-99 -/
def storedObjects (versions : List (ℕ × VersionRow)) (quarantined : List (ℕ × QuarantineRow)) :
    List StoredObject :=
  (versions.map fun v => ⟨v.2.storageKey, v.2.providerVersionId, v.2.sha256,
      .documentVersion v.1 v.2.filename⟩) ++
    quarantined.filterMap fun q =>
      match q.2.storageKey with
      | none | some [] => none
      | some key => some ⟨key, q.2.providerVersionId, q.2.sha256, .quarantinedUpload q.1⟩

/-- An entry of the manifest. -/
structure BackupEntry where
  sourceKey : Text
  sourceVersionId : Text
  sha256 : Text
  destKey : Text
  row : ObjectRow
deriving DecidableEq

/-- `rstrip("/")` -/
def withoutSlash (t : Text) : Text := t.rdropWhile (· = '/')

/-- `f"{dest_prefix}/{sha256}/{provider_version_id or 'null'}/{storage_key}"` -/
def destKey (destPrefix : Text) (o : StoredObject) : Text :=
  destPrefix ++ '/' :: (o.sha256 ++ '/' ::
    ((if o.providerVersionId = [] then "null".toList else o.providerVersionId) ++ '/' ::
      o.storageKey))

def entryOf (destPrefix : Text) (o : StoredObject) : BackupEntry :=
  ⟨o.storageKey, o.providerVersionId, o.sha256, destKey destPrefix o, o.row⟩

/-- What the environment and the command line say, and the manifest object. -/
structure BackupOptions where
  allowFs : Bool
  sse : Text
  destPrefix : Text
  dryRun : Bool
  markerKey : Text
  manifestBody : List BackupEntry → Contents

/-! ## The local storage -/

/-- What is at a name: nothing, a file that cannot be read, or a file. -/
abbrev LocalStorage := Text → Option (Option Contents)

structure LocalRules where
  /-- The path of the name can be written. -/
  accepts : Text → Bool
  /-- `get_available_name` for a name that is taken: a free one in the same directory. -/
  alternative : LocalStorage → Text → Option Text
  alternative_free : ∀ s name other, alternative s name = some other → s other = none
  alternative_within : ∀ s name other (dir : Text), alternative s name = some other →
    dir ++ ['/'] <+: name → dir ++ ['/'] <+: other

namespace LocalStorage

/-- `storage.open(name, "rb").read()` -/
def read (s : LocalStorage) (name : Text) : Option Contents := (s name).join

/-- `storage.save(name, ContentFile(data))` -/
def save (R : LocalRules) (s : LocalStorage) (name : Text) (data : Contents) :
    Except BackupError (Text × LocalStorage) := do
  let free ← orRaise (if s name = none then some name else R.alternative s name) .storage
  require (R.accepts free = true) BackupError.storage
  return (free, Function.update s free (some (some data)))

/-- `_backup_one` without S3: what cannot be read is empty. SOURCE: backup_objects.py:174-219 -/
def backupOne (R : LocalRules) (O : BackupOptions) (s : LocalStorage) (o : StoredObject) :
    Except BackupError (BackupEntry × LocalStorage) :=
  let entry := entryOf (withoutSlash O.destPrefix) o
  if O.dryRun then .ok (entry, s)
  else do
    let data := (s.read o.storageKey).getD []
    let (_, s) ← s.save R entry.destKey data
    return (entry, s)

/-- `backup_objects`: the entries of the manifest. SOURCE: backup_objects.py:45-139 -/
def backupObjects (R : LocalRules) (O : BackupOptions) (objects : List StoredObject)
    (s : LocalStorage) : Except BackupError (List BackupEntry × LocalStorage) := do
  require (O.allowFs = true) (BackupError.command
    "Object backup requires S3-compatible storage with versioning and SSE, or LAMTO_BACKUP_ALLOW_FS=1 for local drills.")
  let (entries, s) ← turns (backupOne R O) s objects
  if O.dryRun then return (entries, s)
  else
    let (_, s) ← s.save R O.markerKey (O.manifestBody entries)
    return (entries, s)

end LocalStorage

/-! ## The versioned bucket -/

/-- The versions of a key of a bucket, newest first. -/
abbrev BucketStore := Text → Text → List (Text × Option Contents)

structure BucketRules where
  accepts : Text → Text → Bool
  newVersionId : BucketStore → Text → Text → Text

namespace BucketStore

/-- The newest version, unless it is a delete marker. -/
def latest (s : BucketStore) (bucket key : Text) : Option Contents :=
  (s bucket key).head?.bind Prod.snd

def version (s : BucketStore) (bucket key versionId : Text) : Option Contents :=
  ((s bucket key).find? fun v => v.1 = versionId).bind Prod.snd

/-- `put_object` -/
def put (R : BucketRules) (s : BucketStore) (bucket key : Text) (data : Contents) :
    Except BackupError BucketStore :=
  if R.accepts bucket key then
    .ok (Function.update s bucket (Function.update (s bucket) key
      ((R.newVersionId s bucket key, some data) :: s bucket key)))
  else .error .storage

/-- What a copy reads: a version, or the newest one. -/
def source (s : BucketStore) (bucket key : Text) (versionId : Option Text) : Option Contents :=
  match versionId with
  | some v => s.version bucket key v
  | none => s.latest bucket key

/-- `copy_object`; the bytes that are copied come with it. -/
def copyObject (R : BucketRules) (s : BucketStore) (bucket key : Text) (versionId : Option Text)
    (destBucket destKey : Text) : Except BackupError (Contents × BucketStore) := do
  let data ← orRaise (s.source bucket key versionId) .storage
  let s ← s.put R destBucket destKey data
  return (data, s)

/-- `VersionId` of a copy. SOURCE: backup_objects.py:198-201 -/
def copiedVersion (providerVersionId : Text) : Option Text :=
  if providerVersionId ≠ [] ∧ lower providerVersionId ≠ "null".toList then some providerVersionId
  else none

/-- `_backup_one` with S3. -/
def backupOne (R : BucketRules) (O : BackupOptions) (bucket : Text) (s : BucketStore)
    (o : StoredObject) : Except BackupError (BackupEntry × BucketStore) :=
  let entry := entryOf (withoutSlash O.destPrefix) o
  if O.dryRun then .ok (entry, s)
  else do
    let (_, s) ← s.copyObject R bucket o.storageKey (copiedVersion o.providerVersionId) bucket
      entry.destKey
    return (entry, s)

/-- `_assert_versioning_and_sse`, given what the bucket answers. SOURCE: backup_objects.py:150-172 -/
def assertVersioningAndSse (O : BackupOptions) (bucket : Text) (status : Option Text) :
    Except BackupError Unit := do
  let status ← orRaise status .unableToReadVersioning
  require (lower status = "enabled".toList) (BackupError.versioningNotEnabled bucket status)
  require (O.sse ≠ [])
    (BackupError.command "BACKUP_SSE must be set for destination server-side encryption.")

def backupObjects (R : BucketRules) (O : BackupOptions) (bucket : Text) (status : Option Text)
    (objects : List StoredObject) (s : BucketStore) :
    Except BackupError (List BackupEntry × BucketStore) := do
  assertVersioningAndSse O bucket status
  let (entries, s) ← turns (backupOne R O bucket) s objects
  if O.dryRun then return (entries, s)
  else
    let s ← s.put R bucket O.markerKey (O.manifestBody entries)
    return (entries, s)

end BucketStore

/-! ## The restore -/

/-- `entry.get("dest_key") or entry.get("source_key")` -/
def copyKey (e : BackupEntry) : Text := if e.destKey = [] then e.sourceKey else e.destKey

/-- `f"{dest_prefix}/{sha}/{source_key}"` -/
def targetKey (destPrefix : Text) (e : BackupEntry) : Text :=
  destPrefix ++ '/' :: (e.sha256 ++ '/' :: e.sourceKey)

namespace LocalStorage

/-- What is restored: the copy, else the source, else nothing. SOURCE:
restore_object_backup.py:82-92 -/
def restoredBytes (s : LocalStorage) (e : BackupEntry) : Contents :=
  ((s.read (copyKey e)).orElse fun _ => s.read e.sourceKey).getD []

/-- One entry; the name it is saved under is returned. SOURCE: restore_object_backup.py:58-97 -/
def restoreOne (R : LocalRules) (O : BackupOptions) (destPrefix : Text) (s : LocalStorage)
    (e : BackupEntry) : Except BackupError (Text × LocalStorage) := do
  require (O.allowFs = true)
    (BackupError.command "Restore requires S3 storage or LAMTO_BACKUP_ALLOW_FS=1.")
  s.save R (targetKey destPrefix e) (s.restoredBytes e)

def restoreObjectBackup (R : LocalRules) (O : BackupOptions) (destPrefix : Text)
    (entries : List BackupEntry) (s : LocalStorage) :
    Except BackupError (List Text × LocalStorage) := do
  require (entries ≠ []) (BackupError.command "Manifest contains no entries.")
  turns (restoreOne R O (withoutSlash destPrefix)) s entries

end LocalStorage

namespace BucketStore

/-- One entry; the bytes that are copied are returned. -/
def restoreOne (R : BucketRules) (bucket destBucket destPrefix : Text) (s : BucketStore)
    (e : BackupEntry) : Except BackupError (Contents × BucketStore) :=
  s.copyObject R bucket (copyKey e) none destBucket (targetKey destPrefix e)

def restoreObjectBackup (R : BucketRules) (bucket destBucket destPrefix : Text)
    (entries : List BackupEntry) (s : BucketStore) : Except BackupError (List Contents × BucketStore) := do
  require (entries ≠ []) (BackupError.command "Manifest contains no entries.")
  turns (restoreOne R bucket (if destBucket = [] then bucket else destBucket)
    (withoutSlash destPrefix)) s entries

end BucketStore

end LamTo.Model
