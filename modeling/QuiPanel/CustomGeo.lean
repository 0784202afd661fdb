import QuiPanel.Library.Table
import QuiPanel.Library.Trace
import QuiPanel.Text

namespace QuiPanel

namespace CustomGeo

open Keyed Trace

section files

structure Resource where
  id : Int
  geoType : String
  geoAlias : String
  url : String
  localPath : String
  lastUpdatedAt : Int
  lastModified : String
  deriving DecidableEq

structure Form where
  geoType : String
  geoAlias : String
  url : String

-- source is the address a download took the content from, none for a file the panel never wrote
structure File (C : Type) where
  content : C
  source : Option String
  modTime : Int

inductive Node (C : Type)
  | file (f : File C)
  | folder

structure State (C : Type) where
  rows : Table Resource (·.id)
  files : String → Option (Node C)

inductive Err
  | invalidType
  | aliasRequired
  | aliasPattern
  | aliasReserved
  | urlRequired
  | invalidURL
  | urlScheme
  | urlHost
  | duplicateAlias
  | notFound
  | download
  | ssrfBlocked
  | pathTraversal
  | fileSystem
  | database
  deriving DecidableEq, Repr

def customGeoTypeGeosite : String := "geosite"

def customGeoTypeGeoip : String := "geoip"

def minDatBytes : Nat := 64

def zeroTime : Int := -62135596800

def reservedCustomAliases : List String := ["geoip", "geosite", "geoip_ir", "geosite_ir", "geoip_ru", "geosite_ru"]

def aliasChar (c : Char) : Bool := ('a' ≤ c && c ≤ 'z') || ('0' ≤ c && c ≤ '9') || c == '_' || c == '-'

def normalizeAliasKey (geoAlias : String) : String :=
  Text.toLower (String.ofList (geoAlias.toList.map fun c => if c = '-' then '_' else c))

def fileNameFor (geoType geoAlias : String) : String :=
  if geoType = customGeoTypeGeoip then "geoip_" ++ geoAlias ++ ".dat" else "geosite_" ++ geoAlias ++ ".dat"

def validateType (geoType : String) : Except Err Unit :=
  if geoType ≠ customGeoTypeGeosite ∧ geoType ≠ customGeoTypeGeoip then .error .invalidType else .ok ()

def validateAlias (geoAlias : String) : Except Err Unit :=
  if geoAlias = "" then .error .aliasRequired
  else if geoAlias.toList.all aliasChar = false then .error .aliasPattern
  else if normalizeAliasKey geoAlias ∈ reservedCustomAliases then .error .aliasReserved
  else .ok ()

structure Url where
  scheme : String
  host : String
  hostname : String
  rebuilt : String

structure Web (C : Type) where
  parse : String → Option Url
  parseTime : String → Option Int
  size : C → Nat

structure Copy (C : Type) where
  body : C
  modified : Int
  lastModified : String

inductive Reply (C : Type)
  | failed
  | refused
  | copy (c : Copy C)

inductive Response (C : Type)
  | failed
  | unexpectedStatus
  | notModified (lastModified : String)
  | full (c : Copy C)

def Reply.answer {C : Type} (since : Option Int) : Reply C → Response C
  | .failed => .failed
  | .refused => .unexpectedStatus
  | .copy c => if since.any (c.modified ≤ ·) then .notModified c.lastModified else .full c

inductive WriteStep
  | mkdirAll
  | tmpPath
  | create
  | copy
  | close
  | rename
  deriving DecidableEq, Repr

structure Attempt (C : Type) where
  unresolved : Bool := false
  blocked : String → Bool := fun _ => false
  stat : Bool := false
  serve : String → Reply C
  fails : Option WriteStep := none
  chtimes : Bool := false
  clock : Int := 0

structure Download (C : Type) where
  unresolved : Bool := false
  first : Attempt C
  restat : Bool := false
  second : Attempt C

inductive Removal
  | done
  | unresolved
  | unseen
  | failed
  deriving DecidableEq, Repr

structure Env (C : Type) where
  blocked : String → Bool := fun _ => false
  readFails : Bool := false
  countFails : Bool := false
  unresolved : Bool := false
  removal : Removal := .done
  download : Download C
  writeFails : Bool := false
  cleanup : Removal := .done
  now : Int := 0

variable {C : Type} (w : Web C)

def sanitizeURL (blocked : String → Bool) (raw : String) : Except Err String :=
  if raw = "" then .error .urlRequired
  else match w.parse raw with
    | none => .error .invalidURL
    | some u =>
      if u.scheme ≠ "http" ∧ u.scheme ≠ "https" then .error .urlScheme
      else if u.host = "" then .error .urlHost
      else if blocked u.hostname then .error .ssrfBlocked
      else .ok u.rebuilt

def State.write (s : State C) (path : String) (node : Option (Node C)) : State C :=
  { s with files := Function.update s.files path node }

def localDatFileNeedsRepair (stat : Bool) (s : State C) (path : String) : Bool :=
  match stat, s.files path with
  | false, some (.file f) => w.size f.content < minDatBytes
  | _, _ => true

def chtimes (s : State C) (path : String) (t : Int) : State C :=
  match s.files path with
  | some (.file f) => s.write path (some (.file { f with modTime := t }))
  | _ => s

def ifModifiedSince (a : Attempt C) (s : State C) (path lastModifiedHeader : String) : Option Int :=
  match s.files path with
  | some (.file f) =>
    if localDatFileNeedsRepair w a.stat s path then none
    else if f.modTime ≠ zeroTime then some f.modTime
    else if lastModifiedHeader ≠ "" then w.parseTime lastModifiedHeader
    else none
  | _ => none

def serverModTime (header : String) : Int := if header = "" then zeroTime else (w.parseTime header).getD zeroTime

def newLastModified (header : String) : String :=
  if header ≠ "" ∧ (w.parseTime header).isSome = true then header else ""

def updateModTime (a : Attempt C) (s : State C) (path header : String) : State C :=
  if serverModTime w header = zeroTime ∨ a.chtimes = true then s else chtimes s path (serverModTime w header)

def saveCopy (a : Attempt C) (s : State C) (source path : String) (c : Copy C) :
    State C × Except Err (Bool × String) :=
  if a.fails.any (· ≠ .rename) then (s, .error .download)
  else if w.size c.body < minDatBytes then (s, .error .download)
  else match a.fails, s.files path with
    | some _, _ => (s, .error .download)
    | none, some .folder => (s, .error .download)
    | none, _ =>
      let s := s.write path (some (.file { content := c.body, source := some source, modTime := a.clock }))
      let lm := newLastModified w c.lastModified
      (updateModTime w a s path c.lastModified, .ok (false, if lm = "" then c.lastModified else lm))

def downloadToPathOnce (a : Attempt C) (s : State C) (resourceURL path lastModifiedHeader : String)
    (forceFull : Bool) : State C × Except Err (Bool × String) :=
  if a.unresolved then (s, .error .download)
  else match sanitizeURL w a.blocked resourceURL with
    | .error _ => (s, .error .download)
    | .ok sanitizedURL =>
      let since := if forceFull then none else ifModifiedSince w a s path lastModifiedHeader
      match (a.serve sanitizedURL).answer since with
      | .failed => (s, .error .download)
      | .unexpectedStatus => (s, .error .download)
      | .notModified header =>
        if forceFull then (s, .error .download)
        else (updateModTime w a s path header, .ok (true, newLastModified w header))
      | .full c => saveCopy w a s sanitizedURL path c

def downloadToPath (d : Download C) (s : State C) (resourceURL path lastModifiedHeader : String) :
    State C × Except Err (Bool × String) :=
  if d.unresolved then (s, .error .download)
  else match downloadToPathOnce w d.first s resourceURL path lastModifiedHeader false with
    | (s, .error e) => (s, .error e)
    | (s, .ok (false, lm)) => (s, .ok (false, lm))
    | (s, .ok (true, lm)) =>
      if localDatFileNeedsRepair w d.restat s path then
        downloadToPathOnce w d.second s resourceURL path lastModifiedHeader true
      else (s, .ok (true, lm))

def resolveDestPath (r : Resource) : String :=
  if r.localPath ≠ "" then r.localPath else fileNameFor r.geoType r.geoAlias

def removeSafePathIfExists (f : Removal) (s : State C) (path : String) : State C × Except Err Unit :=
  match f with
  | .unresolved => (s, .error .pathTraversal)
  | .unseen => (s, .ok ())
  | .failed => (s, if (s.files path).isSome then .error .fileSystem else .ok ())
  | .done => (s.write path none, .ok ())

end files

section service

variable {C : Type} (w : Web C)

def taken (s : State C) (geoType geoAlias : String) (skip : Option Int) : Bool :=
  s.rows.rows.any fun r => r.geoType = geoType && r.geoAlias = geoAlias && skip ≠ some r.id

def validated (e : Env C) (f : Form) : Except Err String :=
  match validateType f.geoType with
  | .error err => .error err
  | .ok _ => match validateAlias f.geoAlias with
    | .error err => .error err
    | .ok _ => sanitizeURL w e.blocked f.url

def first (e : Env C) (s : State C) (id : Int) : Except Err Resource :=
  if e.readFails then .error .database
  else match s.rows.find id with
    | none => .error .notFound
    | some r => .ok r

-- the unique index over type and alias refuses the row as well
def insertRow (e : Env C) (s : State C) (f : Form) (url lm : String) : Option (State C) :=
  if e.writeFails || taken s f.geoType f.geoAlias none then none
  else some { s with rows := s.rows.insert (fun id => {
    id := id, geoType := f.geoType, geoAlias := f.geoAlias, url := url,
    localPath := fileNameFor f.geoType f.geoAlias, lastUpdatedAt := e.now, lastModified := lm }) fun _ => rfl }

def updateRow (e : Env C) (s : State C) (id : Int) (f : Form) (url lm : String) : Option (State C) :=
  if e.writeFails || taken s f.geoType f.geoAlias (some id) then none
  else some { s with rows := s.rows.modify (·.id = id) (fun r => { r with
    geoType := f.geoType, geoAlias := f.geoAlias, url := url, localPath := fileNameFor f.geoType f.geoAlias,
    lastUpdatedAt := e.now, lastModified := lm }) fun _ => rfl }

def touchRow (e : Env C) (s : State C) (id : Int) (path lm : String) : Option (State C) :=
  if e.writeFails then none
  else some { s with rows := s.rows.modify (·.id = id) (fun r => { r with
    localPath := path, lastUpdatedAt := e.now, lastModified := lm }) fun _ => rfl }

def create (e : Env C) (s : State C) (f : Form) : State C × Except Err Unit :=
  match validated w e f with
  | .error err => (s, .error err)
  | .ok url =>
    if !e.countFails && taken s f.geoType f.geoAlias none then (s, .error .duplicateAlias)
    else if e.unresolved then (s, .error .pathTraversal)
    else
      let path := fileNameFor f.geoType f.geoAlias
      match downloadToPath w e.download s url path "" with
      | (s, .error err) => (s, .error err)
      | (s, .ok (_, lm)) => match insertRow e s f url lm with
        | none => ((removeSafePathIfExists e.cleanup s path).1, .error .database)
        | some s => (s, .ok ())

def update (e : Env C) (s : State C) (id : Int) (f : Form) : State C × Except Err Unit :=
  match first e s id with
  | .error err => (s, .error err)
  | .ok cur => match validated w e f with
    | .error err => (s, .error err)
    | .ok url =>
      if (cur.geoType ≠ f.geoType ∨ cur.geoAlias ≠ f.geoAlias) ∧
          (!e.countFails && taken s f.geoType f.geoAlias (some id)) = true then (s, .error .duplicateAlias)
      else if e.unresolved then (s, .error .pathTraversal)
      else
        let oldPath := resolveDestPath cur
        let path := fileNameFor f.geoType f.geoAlias
        let s := if oldPath ≠ path ∧ oldPath ≠ "" then (removeSafePathIfExists e.removal s oldPath).1 else s
        match downloadToPath w e.download s url path cur.lastModified with
        | (s, .error err) => (s, .error err)
        | (s, .ok (_, lm)) => match updateRow e s id f url lm with
          | none => (s, .error .database)
          | some s => (s, .ok ())

def delete (e : Env C) (s : State C) (id : Int) : State C × String × Except Err Unit :=
  match first e s id with
  | .error err => (s, "", .error err)
  | .ok r =>
    let displayName := fileNameFor r.geoType r.geoAlias
    let path := resolveDestPath r
    if e.unresolved then (s, displayName, .error .pathTraversal)
    else if e.writeFails then (s, displayName, .error .database)
    else
      let s := { s with rows := s.rows.delete (·.id = id) }
      (if path ≠ "" then (removeSafePathIfExists e.removal s path).1 else s, displayName, .ok ())

def applyDownloadAndPersist (e : Env C) (s : State C) (id : Int) : State C × String × Except Err Unit :=
  match first e s id with
  | .error err => (s, "", .error err)
  | .ok r =>
    let displayName := fileNameFor r.geoType r.geoAlias
    if e.unresolved then (s, displayName, .error .pathTraversal)
    else match sanitizeURL w e.blocked r.url with
      | .error err => (s, displayName, .error err)
      | .ok url =>
        let path := fileNameFor r.geoType r.geoAlias
        match downloadToPath w e.download s url path r.lastModified with
        | (s, .error err) => (s, displayName, .error err)
        | (s, .ok (_, lm)) => match touchRow e s id path lm with
          | none => (s, displayName, .error .database)
          | some s => (s, displayName, .ok ())

def triggerUpdate (e : Env C) (s : State C) (id : Int) : State C × String × Except Err Unit :=
  applyDownloadAndPersist w e s id

inductive Call (C : Type)
  | create (e : Env C) (f : Form)
  | update (e : Env C) (id : Int) (f : Form)
  | delete (e : Env C) (id : Int)
  | triggerUpdate (e : Env C) (id : Int)

def step (s : State C) : Call C → State C × Except Err Unit
  | .create e f => create w e s f
  | .update e id f => update w e s id f
  | .delete e id => let r := delete e s id; (r.1, r.2.2)
  | .triggerUpdate e id => let r := triggerUpdate w e s id; (r.1, r.2.2)

def after (s : State C) (c : Call C) : State C := (step w s c).1

end service

section downloads

variable {C : Type} (w : Web C)

def Node.data : Node C → Option (C × Option String)
  | .file f => some (f.content, f.source)
  | .folder => none

def State.data (s : State C) (path : String) : Option (Option (C × Option String)) := (s.files path).map Node.data

def State.source (s : State C) (path : String) : Option String := ((s.data path).bind id).bind (·.2)

def State.folder (s : State C) (path : String) : Bool := (s.data path).any (·.isNone)

def HasFile (s : State C) (path : String) : Prop :=
  ∃ content source, s.data path = some (some (content, source)) ∧ minDatBytes ≤ w.size content

def requestURL (url : String) : Option String := (w.parse url).map Url.rebuilt

def served (a : Attempt C) (url : String) : Option (Copy C) :=
  if a.unresolved then none
  else match sanitizeURL w a.blocked url with
    | .error _ => none
    | .ok u => match a.serve u with
      | .copy c => some c
      | _ => none

def unmodified (a : Attempt C) (s : State C) (url path header : String) : Bool :=
  (served w a url).any fun c => (ifModifiedSince w a s path header).any (c.modified ≤ ·)

def complete (a : Attempt C) (s : State C) (url path : String) : Bool :=
  (served w a url).any fun c => a.fails.isNone && decide (minDatBytes ≤ w.size c.body) && !s.folder path

def delivered (d : Download C) (s : State C) (url path header : String) : Bool :=
  !d.unresolved && if unmodified w d.first s url path header then !d.restat || complete w d.second s url path
    else complete w d.first s url path

def kept (d : Download C) (s : State C) (url path header : String) : Bool :=
  unmodified w d.first s url path header && !d.restat

variable {w} {s s' s'' : State C} {path url header : String} {a : Attempt C} {d : Download C}

structure Touched (path : String) (s s' : State C) : Prop where
  rows : s'.rows = s.rows
  others : ∀ q, q ≠ path → s'.files q = s.files q
  data : s'.data path = s.data path

structure Written (w : Web C) (url path : String) (s s' : State C) : Prop where
  rows : s'.rows = s.rows
  others : ∀ q, q ≠ path → s'.files q = s.files q
  hasFile : HasFile w s' path
  source : ∃ u, requestURL w url = some u ∧ s'.source path = some u

theorem Touched.refl (path : String) (s : State C) : Touched path s s := ⟨rfl, fun _ _ => rfl, rfl⟩

theorem Touched.data_all (h : Touched path s s') (q : String) : s'.data q = s.data q := by
  by_cases hq : q = path
  · rw [hq]
    exact h.data
  · rw [State.data, State.data, h.others q hq]

theorem hasFile_congr (h : s'.data path = s.data path) : HasFile w s' path ↔ HasFile w s path := by
  rw [HasFile, HasFile, h]

theorem Written.trans (h' : Written w url path s' s'') (h : Touched path s s') : Written w url path s s'' :=
  ⟨h'.rows.trans h.rows, fun q hq => (h'.others q hq).trans (h.others q hq), h'.hasFile, h'.source⟩

theorem files_write (s : State C) (path q : String) (node : Option (Node C)) :
    (s.write path node).files q = if q = path then node else s.files q :=
  Function.update_apply s.files path node q

theorem data_write (s : State C) (path : String) (node : Option (Node C)) :
    (s.write path node).data path = node.map Node.data := by
  rw [State.data, files_write, if_pos rfl]

theorem chtimes_touched (s : State C) (path : String) (t : Int) : Touched path s (chtimes s path t) := by
  rw [chtimes]
  split
  case h_1 f hf =>
    refine ⟨rfl, fun q hq => ?_, ?_⟩
    · rw [files_write, if_neg hq]
    · rw [data_write, State.data, hf]
      rfl
  case h_2 => exact Touched.refl path s

theorem updateModTime_touched (a : Attempt C) (s : State C) (path header : String) :
    Touched path s (updateModTime w a s path header) := by
  rw [updateModTime]
  split
  · exact Touched.refl path s
  · exact chtimes_touched s path _

inductive Attempted (w : Web C) (a : Attempt C) (s : State C) (url path : String) (skip : Bool) :
    State C × Except Err (Bool × String) → Prop
  | refused (e : Err) : skip = false → complete w a s url path = false → Attempted w a s url path skip (s, .error e)
  | kept (s' : State C) (lm : String) : skip = true → Touched path s s' →
      Attempted w a s url path skip (s', .ok (true, lm))
  | written (s' : State C) (lm : String) : skip = false → complete w a s url path = true →
      Written w url path s s' → Attempted w a s url path skip (s', .ok (false, lm))

theorem sanitizeURL_request {blocked : String → Bool} {u : String} (h : sanitizeURL w blocked url = .ok u) :
    requestURL w url = some u := by
  rw [sanitizeURL] at h
  split_ifs at h
  rw [requestURL]
  split at h
  · cases h
  next hparse =>
    split_ifs at h
    rw [hparse, Option.map_some]
    exact congrArg some (Except.ok.inj h)

theorem saveCopy_attempted {u : String} {c : Copy C} (hu : requestURL w url = some u)
    (hserved : served w a url = some c) : Attempted w a s url path false (saveCopy w a s u path c) := by
  have hcomplete : complete w a s url path =
      (a.fails.isNone && decide (minDatBytes ≤ w.size c.body) && !s.folder path) := by
    rw [complete, hserved, Option.any_some]
  rw [saveCopy]
  split
  case isTrue hfails =>
    refine .refused _ rfl ?_
    rw [hcomplete]
    cases hf : a.fails with
    | none =>
      rw [hf] at hfails
      cases hfails
    | some step => rfl
  case isFalse =>
    split
    case isTrue hsmall =>
      refine .refused _ rfl ?_
      rw [hcomplete, decide_eq_false (Nat.not_le.mpr hsmall)]
      simp
    case isFalse hlarge =>
      have hsize : minDatBytes ≤ w.size c.body := Nat.le_of_not_lt hlarge
      cases hf : a.fails with
      | some step =>
        refine .refused _ rfl ?_
        rw [hcomplete, hf]
        rfl
      | none =>
        have hput : Attempted w a s url path false (updateModTime w a
            (s.write path (some (.file { content := c.body, source := some u, modTime := a.clock }))) path
            c.lastModified, .ok (false, if newLastModified w c.lastModified = "" then c.lastModified
              else newLastModified w c.lastModified)) ∨ s.folder path = true := by
          cases hfolder : s.folder path with
          | true => exact .inr rfl
          | false =>
            have htouched := @updateModTime_touched C w a
              (s.write path (some (.file { content := c.body, source := some u, modTime := a.clock }))) path
              c.lastModified
            have hdata := htouched.data
            rw [data_write] at hdata
            refine .inl (.written _ _ rfl ?_ ⟨htouched.rows, fun q hq => ?_, ⟨_, _, hdata, hsize⟩, u, hu, ?_⟩)
            · rw [hcomplete, hf, hfolder, decide_eq_true hsize]
              rfl
            · rw [htouched.others q hq, files_write, if_neg hq]
            · rw [State.source, hdata]
              rfl
        cases hfile : s.files path with
        | none => exact hput.resolve_right (by simp [State.folder, State.data, hfile])
        | some node =>
          cases node with
          | file f => exact hput.resolve_right (by simp [State.folder, State.data, hfile, Node.data])
          | folder =>
            refine .refused _ rfl ?_
            rw [hcomplete]
            simp [State.folder, State.data, hfile, Node.data]

theorem downloadToPathOnce_attempted (force : Bool) : Attempted w a s url path
    (!force && unmodified w a s url path header) (downloadToPathOnce w a s url path header force) := by
  rw [downloadToPathOnce]
  have hrefused : served w a url = none → ∀ e : Err,
      Attempted w a s url path (!force && unmodified w a s url path header) (s, .error e) := by
    intro hnone e
    refine .refused e ?_ ?_
    · rw [unmodified, hnone]
      exact Bool.and_false _
    · rw [complete, hnone]
      rfl
  split
  case isTrue hunresolved => exact hrefused (by rw [served, if_pos hunresolved]) _
  case isFalse hresolved =>
    cases hu : sanitizeURL w a.blocked url with
    | error e => exact hrefused (by rw [served, if_neg hresolved, hu]) _
    | ok u =>
      dsimp only
      have hcopy : served w a url = match a.serve u with
          | .copy c => some c
          | _ => none := by
        rw [served, if_neg hresolved, hu]
      cases hserve : a.serve u with
      | failed => exact hrefused (by rw [hcopy, hserve]) _
      | refused => exact hrefused (by rw [hcopy, hserve]) _
      | copy c =>
        have hserved : served w a url = some c := by rw [hcopy, hserve]
        rw [Reply.answer, unmodified, hserved, Option.any_some]
        cases force with
        | true =>
          rw [if_pos rfl]
          exact saveCopy_attempted (sanitizeURL_request hu) hserved
        | false =>
          rw [if_neg Bool.false_ne_true]
          cases hsince : (ifModifiedSince w a s path header).any (c.modified ≤ ·) with
          | true => exact .kept _ _ rfl (updateModTime_touched a s path c.lastModified)
          | false => exact saveCopy_attempted (sanitizeURL_request hu) hserved

inductive Downloaded (w : Web C) (d : Download C) (s : State C) (url path header : String) :
    State C × Except Err (Bool × String) → Prop
  | refused (s' : State C) (e : Err) : delivered w d s url path header = false → Touched path s s' →
      Downloaded w d s url path header (s', .error e)
  | kept (s' : State C) (lm : String) : delivered w d s url path header = true →
      kept w d s url path header = true → Touched path s s' → HasFile w s path → (∃ u, requestURL w url = some u) →
      Downloaded w d s url path header (s', .ok (true, lm))
  | written (s' : State C) (lm : String) : delivered w d s url path header = true →
      kept w d s url path header = false → Written w url path s s' →
      Downloaded w d s url path header (s', .ok (false, lm))

theorem needsRepair_iff {stat : Bool} :
    localDatFileNeedsRepair w stat s path = false ↔ stat = false ∧ HasFile w s path := by
  rw [HasFile, State.data]
  cases stat with
  | true => simp [localDatFileNeedsRepair]
  | false =>
    cases hfile : s.files path with
    | none => simp [localDatFileNeedsRepair, hfile]
    | some node =>
      cases node with
      | folder => simp [localDatFileNeedsRepair, hfile, Node.data]
      | file f => simp [localDatFileNeedsRepair, hfile, Node.data]

theorem hasFile_of_unmodified (h : unmodified w a s url path header = true) : HasFile w s path := by
  rw [unmodified, Option.any_eq_true] at h
  obtain ⟨c, -, h⟩ := h
  rw [Option.any_eq_true] at h
  obtain ⟨t, h, -⟩ := h
  rw [ifModifiedSince] at h
  split at h
  · split at h
    · cases h
    next hrepair => exact (needsRepair_iff.mp (Bool.eq_false_iff.mpr hrepair)).2
  · cases h

theorem request_of_unmodified (h : unmodified w a s url path header = true) : ∃ u, requestURL w url = some u := by
  rw [unmodified, Option.any_eq_true] at h
  obtain ⟨c, h, -⟩ := h
  rw [served] at h
  split_ifs at h
  cases hu : sanitizeURL w a.blocked url with
  | error e =>
    rw [hu] at h
    cases h
  | ok u => exact ⟨u, sanitizeURL_request hu⟩

theorem complete_congr (h : s'.data path = s.data path) : complete w a s' url path = complete w a s url path := by
  rw [complete, complete, State.folder, State.folder, h]

theorem downloadToPath_downloaded : Downloaded w d s url path header (downloadToPath w d s url path header) := by
  rw [downloadToPath]
  cases hunresolved : d.unresolved with
  | true =>
    refine .refused s _ ?_ (Touched.refl path s)
    rw [delivered, hunresolved]
    rfl
  | false =>
    have hdelivered : delivered w d s url path header =
        if unmodified w d.first s url path header then !d.restat || complete w d.second s url path
        else complete w d.first s url path := by
      rw [delivered, hunresolved]
      rfl
    rw [if_neg Bool.false_ne_true]
    have hfirst := @downloadToPathOnce_attempted C w s path url header d.first false
    rw [Bool.not_false, Bool.true_and] at hfirst
    generalize downloadToPathOnce w d.first s url path header false = r at hfirst ⊢
    cases hfirst with
    | refused e hskip hcomplete =>
      refine .refused s e ?_ (Touched.refl path s)
      rw [hdelivered, hskip, hcomplete]
      rfl
    | written s' lm hskip hcomplete hwritten =>
      refine .written s' lm ?_ ?_ hwritten
      · rw [hdelivered, hskip, hcomplete]
        rfl
      · rw [CustomGeo.kept, hskip]
        rfl
    | kept s' lm hskip htouched =>
      have hfile := hasFile_of_unmodified hskip
      rw [hskip, if_pos rfl] at hdelivered
      dsimp only
      split
      case isFalse hrepair =>
        have hrestat := (needsRepair_iff.mp (Bool.eq_false_iff.mpr hrepair)).1
        refine .kept s' lm ?_ ?_ htouched hfile (request_of_unmodified hskip)
        · rw [hdelivered, hrestat]
          rfl
        · rw [CustomGeo.kept, hskip, hrestat]
          rfl
      case isTrue hrepair =>
        have hrestat : d.restat = true := by
          by_contra hrestat
          have hsound := needsRepair_iff.mpr ⟨Bool.eq_false_iff.mpr hrestat, (hasFile_congr htouched.data).mpr hfile⟩
          rw [hrepair] at hsound
          cases hsound
        rw [hrestat, Bool.not_true, Bool.false_or, ← complete_congr htouched.data] at hdelivered
        have hkept : CustomGeo.kept w d s url path header = false := by
          rw [CustomGeo.kept, hrestat]
          exact Bool.and_false _
        have hsecond := @downloadToPathOnce_attempted C w s' path url header d.second true
        rw [Bool.not_true, Bool.false_and] at hsecond
        generalize downloadToPathOnce w d.second s' url path header true = r at hsecond ⊢
        cases hsecond with
        | refused e _ hcomplete => exact .refused s' e (hdelivered.trans hcomplete) htouched
        | kept s'' lm' hskip' => cases hskip'
        | written s'' lm' _ hcomplete hwritten =>
          exact .written s'' lm' (hdelivered.trans hcomplete) hkept (hwritten.trans htouched)

end downloads

section claim

variable {C : Type} (w : Web C)

structure Stored (s : State C) : Prop where
  placed : ∀ r ∈ s.rows.rows, r.localPath = fileNameFor r.geoType r.geoAlias
  typed : ∀ r ∈ s.rows.rows, validateType r.geoType = .ok ()
  distinct : ∀ r ∈ s.rows.rows, ∀ r' ∈ s.rows.rows, r.geoType = r'.geoType → r.geoAlias = r'.geoAlias → r.id = r'.id
  present : ∀ r ∈ s.rows.rows, HasFile w s r.localPath

def Serves (s : State C) (f : Form) (r : Resource) : Prop :=
  r.geoType = f.geoType ∧ r.geoAlias = f.geoAlias ∧ requestURL w f.url = some r.url ∧
    ∃ u, requestURL w r.url = some u ∧ s.source r.localPath = some u

structure InStep (s : State C) (target : Option Int) (form : Option Form) (result : State C × Except Err Unit) :
    Prop where
  present : ∀ r ∈ result.1.rows.rows, HasFile w result.1 r.localPath
  unchanged : ∀ e, result.2 = .error e → result.1.rows = s.rows ∧ ∀ path, result.1.data path = s.data path
  others : ∀ r ∈ s.rows.rows, target ≠ some r.id → result.1.data r.localPath = s.data r.localPath
  own : result.2 = .ok () → ∀ f, form = some f →
    ∃ r ∈ result.1.rows.rows, (∀ id, target = some id → r.id = id) ∧ Serves w result.1 f r

def Call.target : Call C → Option Int
  | .create _ _ => none
  | .update _ id _ => some id
  | .delete _ id => some id
  | .triggerUpdate _ id => some id

def Call.form : Call C → Option Form
  | .create _ f => some f
  | .update _ _ f => some f
  | _ => none

def Held (s : State C) (c : Call C) : Prop := InStep w s c.target c.form (step w s c)

def FairCreate (s : State C) (e : Env C) (f : Form) : Prop :=
  let path := fileNameFor f.geoType f.geoAlias
  let known := taken s f.geoType f.geoAlias none
  ∀ url, validated w e f = .ok url → (known = true → e.countFails = true) → e.unresolved = false →
    delivered w e.download s url path "" = true →
      if (e.writeFails || known) = true then
        if kept w e.download s url path "" = true then e.cleanup ≠ .done
        else e.cleanup = .done ∧ s.files path = none
      else kept w e.download s url path "" = true → s.source path = requestURL w url

def FairUpdate (s : State C) (e : Env C) (id : Int) (f : Form) : Prop :=
  let path := fileNameFor f.geoType f.geoAlias
  let known := taken s f.geoType f.geoAlias (some id)
  ∀ cur url, first e s id = .ok cur → validated w e f = .ok url →
    (known = true → e.countFails = true) → e.unresolved = false →
      if delivered w e.download s url path cur.lastModified = true then
        if (e.writeFails || known) = true then
          (cur.localPath = path ∨ e.removal ≠ .done) ∧ kept w e.download s url path cur.lastModified = true
        else kept w e.download s url path cur.lastModified = true → s.source path = requestURL w url
      else cur.localPath = path ∨ e.removal ≠ .done

def FairTriggerUpdate (s : State C) (e : Env C) (id : Int) : Prop :=
  ∀ cur url, first e s id = .ok cur → sanitizeURL w e.blocked cur.url = .ok url → e.unresolved = false →
    e.writeFails = true → delivered w e.download s url cur.localPath cur.lastModified = true →
      kept w e.download s url cur.localPath cur.lastModified = true

def Fair (s : State C) : Call C → Prop
  | .create e f => FairCreate w s e f
  | .update e id f => FairUpdate w s e id f
  | .delete _ _ => True
  | .triggerUpdate e id => FairTriggerUpdate w s e id

variable {w} {s s' : State C} {target : Option Int} {form : Option Form} {f : Form} {e : Env C} {id : Int}
  {url path header lm : String} {cur : Resource} {a : Attempt C}

theorem toList_fileNameFor {geoType : String} (h : validateType geoType = .ok ()) (geoAlias : String) :
    geoType = customGeoTypeGeoip ∧
      (fileNameFor geoType geoAlias).toList =
        'g' :: 'e' :: 'o' :: 'i' :: "p_".toList ++ geoAlias.toList ++ ".dat".toList ∨
    geoType = customGeoTypeGeosite ∧
      (fileNameFor geoType geoAlias).toList =
        'g' :: 'e' :: 'o' :: 's' :: "ite_".toList ++ geoAlias.toList ++ ".dat".toList := by
  rw [fileNameFor]
  split
  case isTrue hip => exact .inl ⟨hip, by simp only [String.toList_append]; rfl⟩
  case isFalse hip =>
    refine .inr ⟨?_, by simp only [String.toList_append]; rfl⟩
    by_contra hsite
    rw [validateType, if_pos ⟨hsite, hip⟩] at h
    cases h

theorem fileNameFor_inj {geoType geoType' geoAlias geoAlias' : String} (h : validateType geoType = .ok ())
    (h' : validateType geoType' = .ok ()) (heq : fileNameFor geoType geoAlias = fileNameFor geoType' geoAlias') :
    geoType = geoType' ∧ geoAlias = geoAlias' := by
  have hlist := congrArg String.toList heq
  rcases toList_fileNameFor h geoAlias with ⟨ht, hl⟩ | ⟨ht, hl⟩ <;>
    rcases toList_fileNameFor h' geoAlias' with ⟨ht', hl'⟩ | ⟨ht', hl'⟩ <;>
    rw [hl, hl'] at hlist
  · refine ⟨ht.trans ht'.symm, String.toList_inj.mp ?_⟩
    simpa using hlist
  · simp at hlist
  · simp at hlist
  · refine ⟨ht.trans ht'.symm, String.toList_inj.mp ?_⟩
    simpa using hlist

theorem validated_spec (h : validated w e f = .ok url) :
    validateType f.geoType = .ok () ∧ requestURL w f.url = some url := by
  rw [validated] at h
  cases htype : validateType f.geoType with
  | error err =>
    rw [htype] at h
    cases h
  | ok u =>
    rw [htype] at h
    cases halias : validateAlias f.geoAlias with
    | error err =>
      rw [halias] at h
      cases h
    | ok u' =>
      rw [halias] at h
      exact ⟨rfl, sanitizeURL_request h⟩

theorem first_spec (h : first e s id = .ok cur) : cur ∈ s.rows.rows ∧ cur.id = id := by
  rw [first] at h
  split_ifs at h
  cases hfind : s.rows.find id with
  | none =>
    rw [hfind] at h
    cases h
  | some r =>
    rw [hfind] at h
    cases h
    exact Table.mem_of_find hfind

theorem not_taken {geoType geoAlias : String} {skip : Option Int} (h : taken s geoType geoAlias skip = false)
    {r : Resource} (hr : r ∈ s.rows.rows) (hskip : skip ≠ some r.id) :
    ¬(r.geoType = geoType ∧ r.geoAlias = geoAlias) := by
  rintro ⟨rfl, rfl⟩
  rw [taken, List.any_eq_false] at h
  have hr := h r hr
  simp [hskip] at hr

theorem apart (hs : Stored w s) {r r' : Resource} (hr : r ∈ s.rows.rows) (hr' : r' ∈ s.rows.rows)
    (hid : r.id ≠ r'.id) : r.localPath ≠ r'.localPath := by
  intro heq
  rw [hs.placed r hr, hs.placed r' hr'] at heq
  obtain ⟨htype, halias⟩ := fileNameFor_inj (hs.typed r hr) (hs.typed r' hr') heq
  exact hid (hs.distinct r hr r' hr' htype halias)

theorem free_path (hs : Stored w s) (htype : validateType f.geoType = .ok ()) {skip : Option Int}
    (h : taken s f.geoType f.geoAlias skip = false) {r : Resource} (hr : r ∈ s.rows.rows) (hskip : skip ≠ some r.id) :
    r.localPath ≠ fileNameFor f.geoType f.geoAlias := by
  intro heq
  rw [hs.placed r hr] at heq
  exact not_taken h hr hskip (fileNameFor_inj (hs.typed r hr) htype heq)

theorem stored_congr (hs : Stored w s) (hrows : s'.rows = s.rows) (hdata : ∀ q, s'.data q = s.data q) :
    Stored w s' where
  placed := by rw [hrows]; exact hs.placed
  typed := by rw [hrows]; exact hs.typed
  distinct := by rw [hrows]; exact hs.distinct
  present := by
    rw [hrows]
    exact fun r hr => (hasFile_congr (hdata r.localPath)).mpr (hs.present r hr)

theorem refused_inStep (hs : Stored w s) (hrows : s'.rows = s.rows) (hdata : ∀ q, s'.data q = s.data q) (err : Err) :
    InStep w s target form (s', .error err) ∧ Stored w s' := by
  have hs' := stored_congr hs hrows hdata
  refine ⟨⟨hs'.present, fun _ _ => ⟨hrows, hdata⟩, fun r _ _ => hdata r.localPath, fun hok => ?_⟩, hs'⟩
  cases hok

theorem state_removed (r : Removal) (s : State C) (path : String) :
    (removeSafePathIfExists r s path).1 = if r = .done then s.write path none else s := by
  cases r <;> rfl

theorem files_source (h : s'.data path = s.data path) : s'.source path = s.source path := by
  rw [State.source, State.source, h]

theorem data_files {s s' : State C} (h : s'.files path = s.files path) : s'.data path = s.data path := by
  rw [State.data, State.data, h]

theorem taken_congr (hrows : s'.rows = s.rows) (geoType geoAlias : String) (skip : Option Int) :
    taken s' geoType geoAlias skip = taken s geoType geoAlias skip := by
  rw [taken, taken, hrows]

theorem inserted_inStep (hs : Stored w s) (htype : validateType f.geoType = .ok ())
    (hurl : requestURL w f.url = some url) (htaken : taken s f.geoType f.geoAlias none = false)
    (hwrite : e.writeFails = false) (hrows : s'.rows = s.rows)
    (hothers : ∀ q, q ≠ fileNameFor f.geoType f.geoAlias → s'.data q = s.data q)
    (hfile : HasFile w s' (fileNameFor f.geoType f.geoAlias))
    (hsource : ∃ u, requestURL w url = some u ∧ s'.source (fileNameFor f.geoType f.geoAlias) = some u) :
    ∃ s'', insertRow e s' f url lm = some s'' ∧ InStep w s none (some f) (s'', .ok ()) ∧ Stored w s'' := by
  have htaken' : taken s' f.geoType f.geoAlias none = false := (taken_congr hrows _ _ _).trans htaken
  rw [insertRow, hwrite, htaken', if_neg (by simp)]
  have hold : ∀ r ∈ s.rows.rows, s'.data r.localPath = s.data r.localPath :=
    fun r hr => hothers _ (free_path hs htype htaken hr (Option.some_ne_none _).symm)
  have hstored : Stored w { s' with rows := s'.rows.insert (fun id => (⟨id, f.geoType, f.geoAlias, url,
      fileNameFor f.geoType f.geoAlias, e.now, lm⟩ : Resource)) fun _ => rfl } := by
    constructor
    · intro r hr
      rcases Table.mem_insert.mp hr with hr | rfl
      · exact hs.placed r (hrows ▸ hr)
      · rfl
    · intro r hr
      rcases Table.mem_insert.mp hr with hr | rfl
      · exact hs.typed r (hrows ▸ hr)
      · exact htype
    · intro r hr r' hr' htype halias
      rcases Table.mem_insert.mp hr with hr | rfl <;> rcases Table.mem_insert.mp hr' with hr' | rfl
      · exact hs.distinct r (hrows ▸ hr) r' (hrows ▸ hr') htype halias
      · exact absurd ⟨htype, halias⟩ (not_taken htaken' hr (Option.some_ne_none _).symm)
      · exact absurd ⟨htype.symm, halias.symm⟩ (not_taken htaken' hr' (Option.some_ne_none _).symm)
      · rfl
    · intro r hr
      rcases Table.mem_insert.mp hr with hr | rfl
      · have hr : r ∈ s.rows.rows := hrows ▸ hr
        exact (hasFile_congr (hold r hr)).mpr (hs.present r hr)
      · exact hfile
  refine ⟨_, rfl, ⟨hstored.present, fun _ herr => (by cases herr), fun r hr _ => hold r hr, fun _ f' hf' => ?_⟩,
    hstored⟩
  obtain rfl := Option.some.inj hf'
  exact ⟨_, Table.mem_insert.mpr (.inr rfl), fun _ h => (by cases h), rfl, rfl, hurl, hsource⟩

theorem mem_modified {g : Resource → Resource} (hg : ∀ r, (g r).id = r.id) (hcur : cur ∈ s.rows.rows) :
    g cur ∈ (s.rows.modify (·.id = cur.id) g hg).rows :=
  Table.mem_modify.mpr ⟨cur, hcur, if_pos (decide_eq_true rfl)⟩

theorem modified_rows {g : Resource → Resource} {hg : ∀ r, (g r).id = r.id} (hs : Stored w s)
    (hcur : cur ∈ s.rows.rows) (hplaced : (g cur).localPath = fileNameFor (g cur).geoType (g cur).geoAlias)
    (htype : validateType (g cur).geoType = .ok ())
    (hfree : ∀ r ∈ s.rows.rows, r.id ≠ cur.id → ¬(r.geoType = (g cur).geoType ∧ r.geoAlias = (g cur).geoAlias))
    (hrows : s'.rows = s.rows) (hothers : ∀ r ∈ s.rows.rows, r.id ≠ cur.id → s'.data r.localPath = s.data r.localPath)
    (hfile : HasFile w s' (g cur).localPath) :
    Stored w { s' with rows := s'.rows.modify (·.id = cur.id) g hg } := by
  have hmem : ∀ r, r ∈ (s'.rows.modify (·.id = cur.id) g hg).rows →
      r = g cur ∨ r ∈ s.rows.rows ∧ r.id ≠ cur.id := by
    intro r hr
    obtain ⟨r', hr', rfl⟩ := Table.mem_modify.mp hr
    rw [hrows] at hr'
    by_cases hid : r'.id = cur.id
    · rw [if_pos (decide_eq_true hid), Table.eq_of_key hr' hcur hid]
      exact .inl rfl
    · rw [if_neg (by simpa using hid)]
      exact .inr ⟨hr', hid⟩
  constructor
  · intro r hr
    rcases hmem r hr with rfl | ⟨hr, -⟩
    · exact hplaced
    · exact hs.placed r hr
  · intro r hr
    rcases hmem r hr with rfl | ⟨hr, -⟩
    · exact htype
    · exact hs.typed r hr
  · intro r hr r' hr' htype halias
    rcases hmem r hr with rfl | ⟨hr, hid⟩ <;> rcases hmem r' hr' with rfl | ⟨hr', hid'⟩
    · rfl
    · exact absurd ⟨htype.symm, halias.symm⟩ (hfree r' hr' hid')
    · exact absurd ⟨htype, halias⟩ (hfree r hr hid)
    · exact hs.distinct r hr r' hr' htype halias
  · intro r hr
    rcases hmem r hr with rfl | ⟨hr, hid⟩
    · exact hfile
    · exact (hasFile_congr (hothers r hr hid)).mpr (hs.present r hr)

theorem updated_inStep (hs : Stored w s) (hcur : cur ∈ s.rows.rows) (htype : validateType f.geoType = .ok ())
    (hurl : requestURL w f.url = some url) (htaken : taken s f.geoType f.geoAlias (some cur.id) = false)
    (hwrite : e.writeFails = false) (hrows : s'.rows = s.rows)
    (hothers : ∀ r ∈ s.rows.rows, r.id ≠ cur.id → s'.data r.localPath = s.data r.localPath)
    (hfile : HasFile w s' (fileNameFor f.geoType f.geoAlias))
    (hsource : ∃ u, requestURL w url = some u ∧ s'.source (fileNameFor f.geoType f.geoAlias) = some u) :
    ∃ s'', updateRow e s' cur.id f url lm = some s'' ∧ InStep w s (some cur.id) (some f) (s'', .ok ()) ∧
      Stored w s'' := by
  have htaken' : taken s' f.geoType f.geoAlias (some cur.id) = false := (taken_congr hrows _ _ _).trans htaken
  rw [updateRow, hwrite, htaken', if_neg (by simp)]
  have hstored := @modified_rows C w s s' cur (fun r => { r with
    geoType := f.geoType, geoAlias := f.geoAlias, url := url, localPath := fileNameFor f.geoType f.geoAlias,
    lastUpdatedAt := e.now, lastModified := lm }) (fun _ => rfl) hs hcur rfl htype
    (fun r hr hid => not_taken htaken hr fun h => hid (Option.some.inj h).symm) hrows hothers hfile
  have hnew := @mem_modified C s' cur (fun r => { r with
    geoType := f.geoType, geoAlias := f.geoAlias, url := url, localPath := fileNameFor f.geoType f.geoAlias,
    lastUpdatedAt := e.now, lastModified := lm }) (fun _ => rfl) (hrows ▸ hcur)
  refine ⟨_, rfl, ⟨hstored.present, fun _ herr => (by cases herr), fun r hr hid => ?_, fun _ f' hf' => ?_⟩, hstored⟩
  · exact hothers r hr fun h => hid (congrArg some h.symm)
  · obtain rfl := Option.some.inj hf'
    exact ⟨_, hnew, fun _ h => Option.some.inj h, rfl, rfl, hurl, hsource⟩

theorem create_inStep (hs : Stored w s) (hfair : FairCreate w s e f) :
    InStep w s none (some f) (create w e s f) ∧ Stored w (create w e s f).1 := by
  rw [create]
  cases hvalid : validated w e f with
  | error err => exact refused_inStep hs rfl (fun _ => rfl) err
  | ok url =>
    obtain ⟨htype, hurl⟩ := validated_spec hvalid
    dsimp only
    split_ifs with hdup hunresolved
    · exact refused_inStep hs rfl (fun _ => rfl) _
    · exact refused_inStep hs rfl (fun _ => rfl) _
    · have hknown : taken s f.geoType f.geoAlias none = true → e.countFails = true := by
        intro hknown
        by_contra hcount
        rw [hknown, Bool.eq_false_iff.mpr hcount] at hdup
        exact hdup rfl
      have hfair := hfair url hvalid hknown (Bool.eq_false_iff.mpr hunresolved)
      have hdown := @downloadToPath_downloaded C w s (fileNameFor f.geoType f.geoAlias) url "" e.download
      generalize downloadToPath w e.download s url (fileNameFor f.geoType f.geoAlias) "" = r at hdown ⊢
      cases hdown with
      | refused s' err _ htouched => exact refused_inStep hs htouched.rows htouched.data_all err
      | kept s' lm hdelivered hkept htouched hfile hrequest =>
        have hfair := hfair hdelivered
        rw [hkept] at hfair
        dsimp only
        cases hrefused : e.writeFails || taken s f.geoType f.geoAlias none with
        | true =>
          rw [hrefused, if_pos rfl, if_pos rfl] at hfair
          rw [insertRow, taken_congr htouched.rows, hrefused, if_pos rfl]
          dsimp only
          rw [state_removed, if_neg hfair]
          exact refused_inStep hs htouched.rows htouched.data_all _
        | false =>
          rw [hrefused, if_neg Bool.false_ne_true] at hfair
          obtain ⟨hwrite, htaken⟩ := Bool.or_eq_false_iff.mp hrefused
          obtain ⟨u, hu⟩ := hrequest
          have hsource : s'.source (fileNameFor f.geoType f.geoAlias) = some u := by
            rw [files_source htouched.data, hfair rfl, hu]
          obtain ⟨s'', hs'', hresult⟩ := @inserted_inStep C w s s' f e url lm hs htype hurl htaken hwrite
            htouched.rows (fun q _ => htouched.data_all q) ((hasFile_congr htouched.data).mpr hfile) ⟨u, hu, hsource⟩
          rw [hs'']
          exact hresult
      | written s' lm hdelivered hkept hwritten =>
        have hfair := hfair hdelivered
        rw [hkept] at hfair
        dsimp only
        cases hrefused : e.writeFails || taken s f.geoType f.geoAlias none with
        | true =>
          rw [hrefused, if_pos rfl, if_neg Bool.false_ne_true] at hfair
          rw [insertRow, taken_congr hwritten.rows, hrefused, if_pos rfl]
          dsimp only
          rw [state_removed, if_pos hfair.1]
          refine @refused_inStep C w s (s'.write (fileNameFor f.geoType f.geoAlias) none) _ _ hs hwritten.rows
            (fun q => ?_) _
          by_cases hq : q = fileNameFor f.geoType f.geoAlias
          · rw [hq, data_write, State.data, hfair.2]
          · rw [State.data, State.data, files_write, if_neg hq, hwritten.others q hq]
        | false =>
          obtain ⟨hwrite, htaken⟩ := Bool.or_eq_false_iff.mp hrefused
          obtain ⟨s'', hs'', hresult⟩ := @inserted_inStep C w s s' f e url lm hs htype hurl htaken hwrite
            hwritten.rows (fun q hq => data_files (hwritten.others q hq)) hwritten.hasFile hwritten.source
          rw [hs'']
          exact hresult

theorem fileNameFor_ne_empty {geoType : String} (h : validateType geoType = .ok ()) (geoAlias : String) :
    fileNameFor geoType geoAlias ≠ "" := by
  intro hempty
  rcases toList_fileNameFor h geoAlias with ⟨-, hl⟩ | ⟨-, hl⟩
  · rw [hempty] at hl
    cases hl
  · rw [hempty] at hl
    cases hl

theorem resolveDestPath_stored (hs : Stored w s) (hcur : cur ∈ s.rows.rows) :
    resolveDestPath cur = cur.localPath ∧ cur.localPath ≠ "" := by
  have hne : cur.localPath ≠ "" := by
    rw [hs.placed cur hcur]
    exact fileNameFor_ne_empty (hs.typed cur hcur) cur.geoAlias
  exact ⟨if_pos hne, hne⟩

theorem unmodified_congr (h : s'.files path = s.files path) :
    unmodified w a s' url path header = unmodified w a s url path header := by
  have hrepair : localDatFileNeedsRepair w a.stat s' path = localDatFileNeedsRepair w a.stat s path := by
    simp only [localDatFileNeedsRepair, h]
  rw [unmodified, unmodified, ifModifiedSince, ifModifiedSince, h, hrepair]

theorem delivered_congr {d : Download C} (h : s'.files path = s.files path) :
    delivered w d s' url path header = delivered w d s url path header := by
  rw [delivered, delivered, unmodified_congr h, complete_congr (data_files h), complete_congr (data_files h)]

theorem kept_congr {d : Download C} (h : s'.files path = s.files path) :
    kept w d s' url path header = kept w d s url path header := by
  rw [kept, kept, unmodified_congr h]

theorem delete_inStep (hs : Stored w s) :
    InStep w s (some id) none ((delete e s id).1, (delete e s id).2.2) ∧ Stored w (delete e s id).1 := by
  rw [delete]
  cases hfirst : first e s id with
  | error err => exact refused_inStep hs rfl (fun _ => rfl) err
  | ok cur =>
    obtain ⟨hcur, hid⟩ := first_spec hfirst
    obtain ⟨hpath, hne⟩ := resolveDestPath_stored hs hcur
    dsimp only
    rw [hpath, if_pos hne]
    split_ifs with hunresolved hwrite
    · exact refused_inStep hs rfl (fun _ => rfl) _
    · exact refused_inStep hs rfl (fun _ => rfl) _
    · rw [state_removed]
      have hothers : ∀ r ∈ s.rows.rows, r.id ≠ id →
          (if e.removal = .done then ({ s with rows := s.rows.delete (·.id = id) } : State C).write cur.localPath none
            else { s with rows := s.rows.delete (·.id = id) }).data r.localPath = s.data r.localPath := by
        intro r hr hrid
        split
        · have hapart := apart hs hr hcur fun h => hrid (h.trans hid)
          rw [State.data, files_write, if_neg hapart]
          rfl
        · rfl
      have hrows : (if e.removal = .done then
          ({ s with rows := s.rows.delete (·.id = id) } : State C).write cur.localPath none
            else { s with rows := s.rows.delete (·.id = id) }).rows = s.rows.delete (·.id = id) := by
        split <;> rfl
      have hmem : ∀ r, r ∈ (s.rows.delete (·.id = id)).rows → r ∈ s.rows.rows ∧ r.id ≠ id := by
        intro r hr
        obtain ⟨hr, hrid⟩ := Table.mem_delete.mp hr
        exact ⟨hr, by simpa using hrid⟩
      generalize (if e.removal = .done then
        ({ s with rows := s.rows.delete (·.id = id) } : State C).write cur.localPath none
          else { s with rows := s.rows.delete (·.id = id) }) = s' at hothers hrows ⊢
      have hstored : Stored w s' := by
        constructor
        · intro r hr
          exact hs.placed r (hmem r (hrows ▸ hr)).1
        · intro r hr
          exact hs.typed r (hmem r (hrows ▸ hr)).1
        · intro r hr r' hr'
          exact hs.distinct r (hmem r (hrows ▸ hr)).1 r' (hmem r' (hrows ▸ hr')).1
        · intro r hr
          obtain ⟨hr, hrid⟩ := hmem r (hrows ▸ hr)
          exact (hasFile_congr (hothers r hr hrid)).mpr (hs.present r hr)
      refine ⟨⟨hstored.present, fun _ herr => (by cases herr), fun r hr hrid => ?_, fun _ f' hf' => ?_⟩, hstored⟩
      · exact hothers r hr fun h => hrid (congrArg some h.symm)
      · cases hf'

theorem triggerUpdate_inStep (hs : Stored w s) (hfair : FairTriggerUpdate w s e id) :
    InStep w s (some id) none ((triggerUpdate w e s id).1, (triggerUpdate w e s id).2.2) ∧
      Stored w (triggerUpdate w e s id).1 := by
  rw [triggerUpdate, applyDownloadAndPersist]
  cases hfirst : first e s id with
  | error err => exact refused_inStep hs rfl (fun _ => rfl) err
  | ok cur =>
    obtain ⟨hcur, rfl⟩ := first_spec hfirst
    have hplaced := hs.placed cur hcur
    dsimp only
    split_ifs with hunresolved
    · exact refused_inStep hs rfl (fun _ => rfl) _
    · cases hurl : sanitizeURL w e.blocked cur.url with
      | error err => exact refused_inStep hs rfl (fun _ => rfl) err
      | ok url =>
        have hfair := hfair cur url hfirst hurl (Bool.eq_false_iff.mpr hunresolved)
        have hdown := @downloadToPath_downloaded C w s cur.localPath url cur.lastModified e.download
        dsimp only
        rw [← hplaced]
        generalize downloadToPath w e.download s url cur.localPath cur.lastModified = r at hdown ⊢
        have htouch : ∀ s' lm, s'.rows = s.rows → (∀ q, q ≠ cur.localPath → s'.data q = s.data q) →
            HasFile w s' cur.localPath → e.writeFails = false →
              ∃ s'', touchRow e s' cur.id cur.localPath lm = some s'' ∧
              InStep w s (some cur.id) none (s'', .ok ()) ∧ Stored w s'' := by
          intro s' lm hrows hothers hfile hwrite
          have hrest : ∀ r ∈ s.rows.rows, r.id ≠ cur.id → s'.data r.localPath = s.data r.localPath :=
            fun r hr hrid => hothers _ (apart hs hr hcur hrid)
          rw [touchRow, hwrite, if_neg Bool.false_ne_true]
          have hstored := @modified_rows C w s s' cur (fun r => { r with
            localPath := cur.localPath, lastUpdatedAt := e.now, lastModified := lm }) (fun _ => rfl) hs hcur hplaced
            (hs.typed cur hcur) (fun r hr hrid h => hrid (hs.distinct r hr cur hcur h.1 h.2)) hrows hrest hfile
          refine ⟨_, rfl, ⟨hstored.present, fun _ herr => (by cases herr), fun r hr hrid => ?_, fun _ f' hf' => ?_⟩,
            hstored⟩
          · exact hrest r hr fun h => hrid (congrArg some h.symm)
          · cases hf'
        cases hdown with
        | refused s' err _ htouched => exact refused_inStep hs htouched.rows htouched.data_all err
        | kept s' lm hdelivered hkept htouched hfile =>
          dsimp only
          cases hwrite : e.writeFails with
          | true =>
            rw [touchRow, if_pos hwrite]
            exact refused_inStep hs htouched.rows htouched.data_all _
          | false =>
            obtain ⟨s'', hs'', hresult⟩ := htouch s' lm htouched.rows (fun q _ => htouched.data_all q)
              ((hasFile_congr htouched.data).mpr hfile) hwrite
            rw [hs'']
            exact hresult
        | written s' lm hdelivered hkept hwritten =>
          dsimp only
          have hwrite : e.writeFails = false := by
            by_contra hwrite
            have hkept' := hfair (Bool.eq_true_of_not_eq_false hwrite) hdelivered
            rw [hkept] at hkept'
            cases hkept'
          obtain ⟨s'', hs'', hresult⟩ := htouch s' lm hwritten.rows
            (fun q hq => data_files (hwritten.others q hq)) hwritten.hasFile hwrite
          rw [hs'']
          exact hresult

theorem detected_iff (hs : Stored w s) (hcur : cur ∈ s.rows.rows) :
    ((cur.geoType ≠ f.geoType ∨ cur.geoAlias ≠ f.geoAlias) ∧
      (!e.countFails && taken s f.geoType f.geoAlias (some cur.id)) = true) ↔
      ¬(taken s f.geoType f.geoAlias (some cur.id) = true → e.countFails = true) := by
  rw [Bool.and_eq_true, Bool.not_eq_true', Classical.not_imp, Bool.not_eq_true]
  constructor
  · rintro ⟨-, hcount, htaken⟩
    exact ⟨htaken, hcount⟩
  · rintro ⟨htaken, hcount⟩
    refine ⟨?_, hcount, htaken⟩
    by_contra hsame
    rw [not_or, not_not, not_not] at hsame
    rw [taken, List.any_eq_true] at htaken
    obtain ⟨r, hr, hmatch⟩ := htaken
    simp only [Bool.and_eq_true, decide_eq_true_eq] at hmatch
    obtain ⟨⟨htype, halias⟩, hid⟩ := hmatch
    exact hid (congrArg some (hs.distinct cur hcur r hr (hsame.1.trans htype.symm) (hsame.2.trans halias.symm)))

def persisted (e : Env C) (id : Int) (f : Form) (url : String) :
    State C × Except Err (Bool × String) → State C × Except Err Unit
  | (s, .error err) => (s, .error err)
  | (s, .ok (_, lm)) => match updateRow e s id f url lm with
    | none => (s, .error .database)
    | some s => (s, .ok ())

theorem downloaded_inStep (hs : Stored w s) (hcur : cur ∈ s.rows.rows) (htype : validateType f.geoType = .ok ())
    (hurl : requestURL w f.url = some url) {r : State C × Except Err (Bool × String)}
    (hrows : s'.rows = s.rows)
    (hrest : ∀ x ∈ s.rows.rows, x.id ≠ cur.id → s'.data x.localPath = s.data x.localPath)
    (hpath : s'.files (fileNameFor f.geoType f.geoAlias) = s.files (fileNameFor f.geoType f.geoAlias))
    (hdown : Downloaded w e.download s' url (fileNameFor f.geoType f.geoAlias) header r)
    (hrefused : delivered w e.download s url (fileNameFor f.geoType f.geoAlias) header = false →
      ∀ q, s'.data q = s.data q)
    (hunsaved : delivered w e.download s url (fileNameFor f.geoType f.geoAlias) header = true →
      (e.writeFails || taken s f.geoType f.geoAlias (some cur.id)) = true →
        (∀ q, s'.data q = s.data q) ∧ kept w e.download s url (fileNameFor f.geoType f.geoAlias) header = true)
    (hsame : delivered w e.download s url (fileNameFor f.geoType f.geoAlias) header = true →
      (e.writeFails || taken s f.geoType f.geoAlias (some cur.id)) = false →
        kept w e.download s url (fileNameFor f.geoType f.geoAlias) header = true →
          s.source (fileNameFor f.geoType f.geoAlias) = requestURL w url) :
    InStep w s (some cur.id) (some f) (persisted e cur.id f url r) ∧ Stored w (persisted e cur.id f url r).1 := by
  have hdata := data_files hpath
  cases hdown with
  | refused s'' err hdelivered htouched =>
    rw [delivered_congr hpath] at hdelivered
    exact refused_inStep hs (htouched.rows.trans hrows)
      (fun q => (htouched.data_all q).trans (hrefused hdelivered q)) err
  | kept s'' lm hdelivered hkept htouched hfile hrequest =>
    rw [delivered_congr hpath] at hdelivered
    rw [kept_congr hpath] at hkept
    have hrows' := htouched.rows.trans hrows
    rw [persisted]
    cases hdb : e.writeFails || taken s f.geoType f.geoAlias (some cur.id) with
    | true =>
      rw [updateRow, taken_congr hrows', hdb, if_pos rfl]
      exact refused_inStep hs hrows' (fun q => (htouched.data_all q).trans ((hunsaved hdelivered hdb).1 q)) _
    | false =>
      obtain ⟨hwrite, htaken⟩ := Bool.or_eq_false_iff.mp hdb
      obtain ⟨u, hu⟩ := hrequest
      have hsource : s''.source (fileNameFor f.geoType f.geoAlias) = some u := by
        rw [files_source htouched.data, files_source hdata, hsame hdelivered hdb hkept, hu]
      obtain ⟨s₃, hs₃, hresult⟩ := @updated_inStep C w s s'' f e url lm cur hs hcur htype hurl htaken hwrite hrows'
        (fun x hx hid => (htouched.data_all _).trans (hrest x hx hid)) ((hasFile_congr htouched.data).mpr hfile)
        ⟨u, hu, hsource⟩
      rw [hs₃]
      exact hresult
  | written s'' lm hdelivered hkept hwritten =>
    rw [delivered_congr hpath] at hdelivered
    rw [kept_congr hpath] at hkept
    have hrows' := hwritten.rows.trans hrows
    rw [persisted]
    cases hdb : e.writeFails || taken s f.geoType f.geoAlias (some cur.id) with
    | true =>
      have hkept' := (hunsaved hdelivered hdb).2
      rw [hkept] at hkept'
      cases hkept'
    | false =>
      obtain ⟨hwrite, htaken⟩ := Bool.or_eq_false_iff.mp hdb
      have hothers : ∀ x ∈ s.rows.rows, x.id ≠ cur.id → s''.data x.localPath = s.data x.localPath := by
        intro x hx hid
        have hfree := free_path hs htype htaken hx fun h => hid (Option.some.inj h).symm
        rw [data_files (hwritten.others _ hfree), hrest x hx hid]
      obtain ⟨s₃, hs₃, hresult⟩ := @updated_inStep C w s s'' f e url lm cur hs hcur htype hurl htaken hwrite hrows'
        hothers hwritten.hasFile hwritten.source
      rw [hs₃]
      exact hresult

theorem update_inStep (hs : Stored w s) (hfair : FairUpdate w s e id f) :
    InStep w s (some id) (some f) (update w e s id f) ∧ Stored w (update w e s id f).1 := by
  rw [update]
  cases hfirst : first e s id with
  | error err => exact refused_inStep hs rfl (fun _ => rfl) err
  | ok cur =>
    obtain ⟨hcur, rfl⟩ := first_spec hfirst
    obtain ⟨hpath, hne⟩ := resolveDestPath_stored hs hcur
    cases hvalid : validated w e f with
    | error err => exact refused_inStep hs rfl (fun _ => rfl) err
    | ok url =>
      obtain ⟨htype, hurl⟩ := validated_spec hvalid
      dsimp only
      rw [hpath]
      split_ifs with hdup hunresolved hmove
      · exact refused_inStep hs rfl (fun _ => rfl) _
      · exact refused_inStep hs rfl (fun _ => rfl) _
      · rw [detected_iff hs hcur, not_not] at hdup
        have hfair := hfair cur url hfirst hvalid hdup (Bool.eq_false_iff.mpr hunresolved)
        rw [state_removed]
        by_cases hdone : e.removal = .done
        · have hlost : ¬(cur.localPath = fileNameFor f.geoType f.geoAlias ∨ e.removal ≠ .done) :=
            not_or.mpr ⟨hmove.1, not_not.mpr hdone⟩
          rw [if_pos hdone]
          refine @downloaded_inStep C w s (s.write cur.localPath none) f e url cur.lastModified cur hs hcur htype
            hurl _ rfl (fun x hx hid => ?_) ?_ downloadToPath_downloaded (fun hd => ?_) (fun hd hdb => ?_)
            fun hd hdb => ?_
          · rw [State.data, files_write, if_neg (apart hs hx hcur hid)]
            rfl
          · rw [files_write, if_neg hmove.1.symm]
          · rw [hd, if_neg Bool.false_ne_true] at hfair
            exact absurd hfair hlost
          · rw [hd, if_pos rfl, hdb, if_pos rfl] at hfair
            exact absurd hfair.1 hlost
          · rw [hd, if_pos rfl, hdb, if_neg Bool.false_ne_true] at hfair
            exact hfair
        · rw [if_neg hdone]
          refine @downloaded_inStep C w s s f e url cur.lastModified cur hs hcur htype hurl _ rfl
            (fun _ _ _ => rfl) rfl downloadToPath_downloaded (fun _ _ => rfl) (fun hd hdb => ?_) fun hd hdb => ?_
          · rw [hd, if_pos rfl, hdb, if_pos rfl] at hfair
            exact ⟨fun _ => rfl, hfair.2⟩
          · rw [hd, if_pos rfl, hdb, if_neg Bool.false_ne_true] at hfair
            exact hfair
      · rw [detected_iff hs hcur, not_not] at hdup
        have hfair := hfair cur url hfirst hvalid hdup (Bool.eq_false_iff.mpr hunresolved)
        refine @downloaded_inStep C w s s f e url cur.lastModified cur hs hcur htype hurl _ rfl (fun _ _ _ => rfl) rfl
          downloadToPath_downloaded (fun _ _ => rfl) (fun hd hdb => ?_) fun hd hdb => ?_
        · rw [hd, if_pos rfl, hdb, if_pos rfl] at hfair
          exact ⟨fun _ => rfl, hfair.2⟩
        · rw [hd, if_pos rfl, hdb, if_neg Bool.false_ne_true] at hfair
          exact hfair

theorem step_inStep (hs : Stored w s) (c : Call C) (hfair : Fair w s c) : Held w s c ∧ Stored w (after w s c) := by
  cases c with
  | create e f => exact create_inStep hs hfair
  | update e id f => exact update_inStep hs hfair
  | delete e id => exact delete_inStep hs
  | triggerUpdate e id => exact triggerUpdate_inStep hs hfair

theorem geo_files_in_step (hs : Stored w s) {calls : List (Call C)} (h : Throughout (after w) (Fair w) s calls) :
    Throughout (after w) (Held w) s calls ∧ ∀ r ∈ (calls.foldl (after w) s).rows.rows,
      HasFile w (calls.foldl (after w) s) r.localPath := by
  have hstep : ∀ s c, Stored w s → Fair w s c → Stored w (after w s c) := fun s c hs hc => (step_inStep hs c hc).2
  exact ⟨(h.keep hs hstep).imp fun s c hsc => (step_inStep hsc.1 c hsc.2).1, (h.foldl hs hstep).present⟩

def plainWeb : Web Nat :=
  { parse := fun url => some ⟨"https", url, url, url⟩, parseTime := fun _ => none, size := fun n => n }

def emptyBin : State Nat := { rows := Table.empty, files := fun _ => none }

def mirror (url : String) : Reply Nat :=
  if url = "new" then .copy ⟨200, 7, ""⟩ else if url = "old" then .copy ⟨100, 3, ""⟩ else .failed

def fetching : Env Nat :=
  { download := { first := { serve := mirror, clock := 5 }, second := { serve := mirror, clock := 5 } } }

def added : Call Nat := .create fetching ⟨"geoip", "mine", "new"⟩

theorem geo_files_in_step_renamed :
    Throughout (after plainWeb) (Held plainWeb) emptyBin [added, .update fetching 1 ⟨"geoip", "other", "old"⟩] ∧
      ∀ r ∈ ([added, .update fetching 1 ⟨"geoip", "other", "old"⟩].foldl (after plainWeb) emptyBin).rows.rows,
        HasFile plainWeb ([added, .update fetching 1 ⟨"geoip", "other", "old"⟩].foldl (after plainWeb) emptyBin)
          r.localPath := by
  have hempty : Stored plainWeb emptyBin :=
    ⟨fun r hr => (nomatch hr), fun r hr => (nomatch hr), fun r hr => (nomatch hr), fun r hr => (nomatch hr)⟩
  refine geo_files_in_step hempty ⟨fun url hurl _ _ _ => ?_, fun cur url hcur hurl _ _ => ?_, trivial⟩
  · obtain rfl := Except.ok.inj hurl
    exact fun h => Bool.noConfusion h
  · obtain rfl := Except.ok.inj hcur
    obtain rfl := Except.ok.inj hurl
    exact fun h => Bool.noConfusion h

theorem lost_or_stale :
    ¬Throughout (after plainWeb) (Held plainWeb) emptyBin [added, .update fetching 1 ⟨"geoip", "other", "gone"⟩] ∧
      ¬Throughout (after plainWeb) (Held plainWeb) emptyBin [added, .update fetching 1 ⟨"geoip", "mine", "old"⟩] := by
  constructor
  · rintro ⟨-, hheld, -⟩
    have hdata := (hheld.unchanged .download rfl).2 "geoip_mine.dat"
    cases hdata
  · rintro ⟨-, hheld, -⟩
    obtain ⟨r, hr, -, -, -, -, u, hu, hsource⟩ := hheld.own rfl _ rfl
    obtain rfl := List.mem_singleton.mp hr
    have hold : "old" = u := Option.some.inj hu
    have hnew : "new" = u := Option.some.inj hsource
    exact absurd (hnew.trans hold.symm) (by decide)

end claim

end CustomGeo

end QuiPanel
