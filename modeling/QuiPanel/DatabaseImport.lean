import Mathlib.Logic.Function.Basic
import Mathlib.Tactic.SplitIfs

namespace QuiPanel

namespace DatabaseImport

inductive Path
  | database
  | temp
  | backup
  | other (name : String)
  deriving DecidableEq, Repr

inductive Origin
  | previous
  | uploaded
  | leftover
  deriving DecidableEq, Repr

structure File (α : Type) where
  origin : Origin
  data : α
  deriving DecidableEq, Repr

inductive Handle
  | closed
  | opened (origin : Origin)
  deriving DecidableEq, Repr

structure State (α : Type) where
  files : Path → Option (File α)
  handle : Handle

inductive Closing
  | closed
  | failed
  | keptOpen
  deriving DecidableEq, Repr

inductive Opening (α : Type)
  | noDirectory
  | notOpened (data : α)
  | notMigrated (data : α)
  | done
  deriving DecidableEq, Repr

structure Faults (α : Type) where
  format : Option Bool := some true
  seek : Bool := false
  removeTemp : Bool := false
  create : Bool := false
  copy : Option α := none
  closeTemp : Bool := false
  integrity : Bool := false
  closeDB : Closing := .closed
  removeBackup : Bool := false
  renameToBackup : Bool := false
  renameTemp : Bool := false
  restore : Bool := false
  initDB : Opening α := .done
  restartXray : Bool := false
  cleanBackup : Bool := false
  cleanTemp : Bool := false

inductive Err
  | checkingFormat
  | invalidFormat
  | resettingReader
  | removingTemp
  | creatingTemp
  | saving
  | closingTemp
  | corrupt
  | removingFallback
  | backingUp
  | movingAndRestoring
  | moving
  | migratingAndRestoring
  | migrating
  | startingXray
  deriving DecidableEq, Repr

section program

variable {α : Type} (upgrade : α → α)

def write (s : State α) (p : Path) (f : Option (File α)) : State α := { s with files := Function.update s.files p f }

def remove (fails : Bool) (s : State α) (p : Path) : Option (State α) :=
  if (s.files p).isNone then some s else if fails then none else some (write s p none)

def rename (fails : Bool) (s : State α) (source dest : Path) : Option (State α) :=
  match fails, s.files source with
  | false, some f => some (write (write s dest (some f)) source none)
  | _, _ => none

def closeDB (f : Faults α) (s : State α) : State α :=
  match f.closeDB with
  | .closed | .failed => { s with handle := .closed }
  | .keptOpen => s

def initDB (f : Faults α) (s : State α) : State α × Bool :=
  let file := s.files .database
  match f.initDB with
  | .noDirectory => (s, false)
  | .notOpened data => ({ write s .database (file.map ({ · with data := data })) with handle := .closed }, false)
  | .notMigrated data => ({ write s .database (file.map ({ · with data := data })) with
      handle := file.elim .closed fun file => .opened file.origin }, false)
  | .done => ({ write s .database (file.map fun file => { file with data := upgrade file.data }) with
      handle := file.elim .closed fun file => .opened file.origin }, true)

def cleanup (fails : Bool) (s : State α) (p : Path) : State α := (remove fails s p).getD s

def openImported (f : Faults α) (s : State α) : State α × Except Err Unit :=
  match initDB upgrade f s with
  | (s, false) => match rename f.restore s .backup .database with
    | none => (s, .error .migratingAndRestoring)
    | some s => (s, .error .migrating)
  | (s, true) => (s, if f.restartXray then .error .startingXray else .ok ())

def swap (f : Faults α) (s : State α) : State α × Except Err Unit :=
  match rename f.renameTemp s .temp .database with
  | none => match rename f.restore s .backup .database with
    | none => (s, .error .movingAndRestoring)
    | some s => (s, .error .moving)
  | some s => openImported upgrade f s

def replace (f : Faults α) (s : State α) : State α × Except Err Unit :=
  let s := closeDB f s
  match remove f.removeBackup s .backup with
  | none => (s, .error .removingFallback)
  | some s => match rename f.renameToBackup s .database .backup with
    | none => (s, .error .backingUp)
    | some s =>
      let (s, r) := swap upgrade f s
      (cleanup f.cleanBackup s .backup, r)

def saveUpload (f : Faults α) (s : State α) (upload : α) : State α × Except Err Unit :=
  match f.copy with
  | some part => (write s .temp (some ⟨.uploaded, part⟩), .error .saving)
  | none =>
    let s := write s .temp (some ⟨.uploaded, upload⟩)
    if f.closeTemp then (s, .error .closingTemp)
    else if f.integrity then (s, .error .corrupt)
    else replace upgrade f s

def importDB (f : Faults α) (s : State α) (upload : α) : State α × Except Err Unit :=
  match f.format with
  | none => (s, .error .checkingFormat)
  | some false => (s, .error .invalidFormat)
  | some true =>
    if f.seek then (s, .error .resettingReader)
    else match remove f.removeTemp s .temp with
      | none => (s, .error .removingTemp)
      | some s =>
        if f.create then (s, .error .creatingTemp)
        else
          let (s, r) := saveUpload upgrade f s upload
          (cleanup f.cleanTemp s .temp, r)

end program

section claim

variable {α : Type}

def importOpened : Except Err Unit → Bool
  | .ok () => true
  | .error .startingXray => true
  | _ => false

def restoreFailed : Except Err Unit → Bool
  | .error .movingAndRestoring => true
  | .error .migratingAndRestoring => true
  | _ => false

structure Safe (upgrade : α → α) (old upload : α) (s : State α) (r : Except Err Unit) : Prop where
  kept : importOpened r = false → s.files .database = some ⟨.previous, old⟩ ∨
    restoreFailed r = true ∧ s.files .backup = some ⟨.previous, old⟩
  reopened : importOpened r = false → restoreFailed r = false → s.handle = .opened .previous
  imported : importOpened r = true → s.files .database = some ⟨.uploaded, upgrade upload⟩
  clean : s.files .temp = none

structure Running (old : α) (s : State α) : Prop where
  database : s.files .database = some ⟨.previous, old⟩
  handle : s.handle = .opened .previous

def OpenSound (f : Faults α) : Prop :=
  match f.initDB with
  | .done => True
  | .noDirectory => if f.restore then f.cleanBackup = true else f.closeDB = .keptOpen
  | .notOpened _ => f.restore = true ∧ f.cleanBackup = true
  | .notMigrated _ => f.restore = true ∧ f.cleanBackup = true

def SwapSound (f : Faults α) : Prop :=
  if f.renameTemp then
    if f.restore then f.cleanBackup = true ∧ f.cleanTemp = false else f.closeDB = .keptOpen ∧ f.cleanTemp = false
  else OpenSound f

def Sound (f : Faults α) (s : State α) : Prop :=
  if f.format ≠ some true ∨ f.seek = true then s.files .temp = none
  else if f.removeTemp = true ∧ s.files .temp ≠ none then False
  else if f.create then True
  else if f.copy ≠ none ∨ f.closeTemp = true ∨ f.integrity = true then f.cleanTemp = false
  else if f.removeBackup = true ∧ s.files .backup ≠ none ∨ f.renameToBackup = true then
    f.closeDB = .keptOpen ∧ f.cleanTemp = false
  else SwapSound f

variable {upgrade : α → α} {old upload : α} {s : State α} {f : Faults α} {p : Path} {fails : Bool}
  {r : Except Err Unit}

theorem files_write (s : State α) (p q : Path) (x : Option (File α)) :
    (write s p x).files q = if q = p then x else s.files q :=
  Function.update_apply s.files p x q

theorem files_cleanup (fails : Bool) (s : State α) (p q : Path) :
    (cleanup fails s p).files q = if q = p ∧ fails = false then none else s.files q := by
  rw [cleanup, remove]
  split
  case isTrue hnone =>
    rw [Option.getD_some]
    split
    case isTrue hq => rw [hq.1]; exact Option.isNone_iff_eq_none.mp hnone
    case isFalse => rfl
  case isFalse hsome =>
    cases fails with
    | true => simp
    | false => simp [files_write]

theorem handle_cleanup (fails : Bool) (s : State α) (p : Path) : (cleanup fails s p).handle = s.handle := by
  rw [cleanup, remove]
  split
  · rfl
  · cases fails <;> rfl

theorem safe_iff_unopened (hopened : importOpened r = false) (hrestore : restoreFailed r = false) :
    Safe upgrade old upload s r ↔
      s.files .database = some ⟨.previous, old⟩ ∧ s.handle = .opened .previous ∧ s.files .temp = none := by
  constructor
  · intro h
    refine ⟨?_, h.reopened hopened hrestore, h.clean⟩
    rcases h.kept hopened with hkept | ⟨hfailed, -⟩
    · exact hkept
    · rw [hrestore] at hfailed
      cases hfailed
  · rintro ⟨hdatabase, hhandle, htemp⟩
    refine ⟨fun _ => .inl hdatabase, fun _ _ => hhandle, fun h => ?_, htemp⟩
    rw [hopened] at h
    cases h

theorem safe_iff_unrestored (hopened : importOpened r = false) (hrestore : restoreFailed r = true) :
    Safe upgrade old upload s r ↔ (s.files .database = some ⟨.previous, old⟩ ∨
      s.files .backup = some ⟨.previous, old⟩) ∧ s.files .temp = none := by
  constructor
  · intro h
    exact ⟨(h.kept hopened).imp_right And.right, h.clean⟩
  · rintro ⟨hkept, htemp⟩
    refine ⟨fun _ => hkept.imp_right fun hbackup => ⟨hrestore, hbackup⟩, fun _ h => ?_, fun h => ?_, htemp⟩
    · rw [hrestore] at h
      cases h
    · rw [hopened] at h
      cases h

theorem safe_iff_opened (hopened : importOpened r = true) : Safe upgrade old upload s r ↔
    s.files .database = some ⟨.uploaded, upgrade upload⟩ ∧ s.files .temp = none := by
  constructor
  · intro h
    exact ⟨h.imported hopened, h.clean⟩
  · rintro ⟨hdatabase, htemp⟩
    refine ⟨fun h => ?_, fun h => ?_, fun _ => hdatabase, htemp⟩
    · rw [hopened] at h
      cases h
    · rw [hopened] at h
      cases h

structure Swapping (f : Faults α) (old upload : α) (s : State α) : Prop where
  database : s.files .database = none
  temp : s.files .temp = some ⟨.uploaded, upload⟩
  backup : s.files .backup = some ⟨.previous, old⟩
  handle : s.handle = .opened .previous ↔ f.closeDB = .keptOpen

def finished (f : Faults α) (r : State α × Except Err Unit) : State α :=
  cleanup f.cleanTemp (cleanup f.cleanBackup r.1 .backup) .temp

theorem files_finished (f : Faults α) (r : State α × Except Err Unit) (q : Path) : (finished f r).files q =
    if q = .temp ∧ f.cleanTemp = false ∨ q = .backup ∧ f.cleanBackup = false then none else r.1.files q := by
  rw [finished, files_cleanup, files_cleanup]
  by_cases htemp : q = .temp ∧ f.cleanTemp = false
  · rw [if_pos htemp, if_pos (.inl htemp)]
  · rw [if_neg htemp]
    simp only [htemp, false_or]

theorem handle_finished (f : Faults α) (r : State α × Except Err Unit) : (finished f r).handle = r.1.handle := by
  rw [finished, handle_cleanup, handle_cleanup]

theorem rename_some {source dest : Path} {x : File α} (h : s.files source = some x) :
    rename false s source dest = some (write (write s dest (some x)) source none) := by
  simp only [rename, h]

theorem rename_fails (s : State α) (source dest : Path) : rename true s source dest = none := rfl

structure Installed (f : Faults α) (old upload : α) (s : State α) : Prop where
  database : s.files .database = some ⟨.uploaded, upload⟩
  temp : s.files .temp = none
  backup : s.files .backup = some ⟨.previous, old⟩
  handle : s.handle = .opened .previous ↔ f.closeDB = .keptOpen

theorem unrestored_sound {data : α} (hdatabase : s.files .database = some ⟨.uploaded, data⟩)
    (htemp : s.files .temp = none) (hbackup : s.files .backup = some ⟨.previous, old⟩) :
    Safe upgrade old upload (finished f (s, .error .migratingAndRestoring)) (.error .migratingAndRestoring) ↔
      f.cleanBackup = true := by
  rw [safe_iff_unrestored rfl rfl]
  simp [files_finished, hdatabase, hbackup, htemp]

theorem unopened_sound {data : α} (hdatabase : s.files .database = some ⟨.uploaded, data⟩)
    (htemp : s.files .temp = none) (hbackup : s.files .backup = some ⟨.previous, old⟩)
    (hhandle : s.handle ≠ .opened .previous) {result : State α × Except Err Unit}
    (hresult : result = match rename f.restore s .backup .database with
      | none => (s, .error .migratingAndRestoring)
      | some s => (s, .error .migrating)) :
    Safe upgrade old upload (finished f result) result.2 ↔ f.restore = true ∧ f.cleanBackup = true := by
  cases hrestore : f.restore with
  | true =>
    rw [hrestore, rename_fails] at hresult
    rw [hresult, unrestored_sound hdatabase htemp hbackup]
    exact ⟨fun h => ⟨rfl, h⟩, And.right⟩
  | false =>
    rw [hrestore, rename_some hbackup] at hresult
    rw [hresult, safe_iff_unopened rfl rfl, handle_finished]
    exact ⟨fun h => absurd h.2.1 hhandle, fun h => nomatch h.1⟩

theorem openImported_sound (hs : Installed f old upload s) :
    Safe upgrade old upload (finished f (openImported upgrade f s)) (openImported upgrade f s).2 ↔ OpenSound f := by
  have hdatabase := hs.database
  have hbackup := hs.backup
  have htemp := hs.temp
  rw [openImported, OpenSound]
  cases hinit : f.initDB with
  | done =>
    have hopened : importOpened (if f.restartXray then .error .startingXray else .ok ()) = true := by
      split <;> rfl
    simp only [initDB, hinit, iff_true]
    rw [safe_iff_opened hopened]
    simp [files_finished, hdatabase, htemp, write]
  | noDirectory =>
    simp only [initDB, hinit]
    cases hrestore : f.restore with
    | true =>
      rw [rename_fails]
      exact unrestored_sound hdatabase htemp hbackup
    | false =>
      rw [rename_some hbackup]
      dsimp only
      rw [safe_iff_unopened rfl rfl, handle_finished]
      simp [files_finished, write, htemp, hs.handle]
  | notOpened data =>
    refine @unopened_sound _ _ _ _
      { write s .database ((s.files .database).map ({ · with data := data })) with handle := .closed } _ data ?_ htemp
      hbackup (by simp) _ ?_
    · rw [hdatabase]
      rfl
    · simp only [initDB, hinit]
  | notMigrated data =>
    refine @unopened_sound _ _ _ _ { write s .database ((s.files .database).map ({ · with data := data })) with
      handle := (s.files .database).elim .closed fun file => .opened file.origin } _ data ?_ htemp hbackup ?_ _ ?_
    · rw [hdatabase]
      rfl
    · rw [hdatabase]
      simp
    · simp only [initDB, hinit]

theorem swap_sound (hs : Swapping f old upload s) :
    Safe upgrade old upload (finished f (swap upgrade f s)) (swap upgrade f s).2 ↔ SwapSound f := by
  have htemp := hs.temp
  have hbackup := hs.backup
  have hdatabase := hs.database
  rw [swap, SwapSound]
  cases hrename : f.renameTemp with
  | true =>
    rw [rename_fails]
    cases hrestore : f.restore with
    | true =>
      rw [rename_fails]
      dsimp only
      rw [safe_iff_unrestored rfl rfl]
      simp [files_finished, hdatabase, hbackup, htemp]
    | false =>
      rw [rename_some hbackup]
      dsimp only
      rw [safe_iff_unopened rfl rfl, handle_finished, ← hs.handle]
      simp [files_finished, write, htemp]
  | false =>
    rw [rename_some htemp]
    dsimp only
    exact openImported_sound ⟨rfl, rfl, hbackup, hs.handle⟩

theorem removed (h : ¬(fails = true ∧ s.files p ≠ none)) : ∃ s', remove fails s p = some s' ∧ s'.files p = none ∧
    s'.handle = s.handle ∧ ∀ q, q ≠ p → s'.files q = s.files q := by
  rw [remove]
  split
  case isTrue hnone => exact ⟨s, rfl, Option.isNone_iff_eq_none.mp hnone, rfl, fun _ _ => rfl⟩
  case isFalse hsome =>
    have hfails : ¬fails = true := fun hfails => h ⟨hfails, fun hnone => hsome (Option.isNone_iff_eq_none.mpr hnone)⟩
    rw [if_neg hfails]
    refine ⟨_, rfl, Function.update_self .., rfl, fun q hq => Function.update_of_ne hq ..⟩

theorem remove_none (h : fails = true ∧ s.files p ≠ none) : remove fails s p = none := by
  rw [remove, if_neg fun hnone => h.2 (Option.isNone_iff_eq_none.mp hnone), if_pos h.1]

theorem handle_closeDB (f : Faults α) (hs : Running old s) :
    (closeDB f s).handle = .opened .previous ↔ f.closeDB = .keptOpen := by
  rw [closeDB]
  cases f.closeDB with
  | closed => simp
  | failed => simp
  | keptOpen => simp [hs.handle]

theorem files_closeDB (f : Faults α) (s : State α) : (closeDB f s).files = s.files := by
  rw [closeDB]
  cases f.closeDB <;> rfl

theorem discarded_sound {e : Err} (hopened : importOpened (.error e) = false)
    (hrestore : restoreFailed (.error e) = false) (hdatabase : s.files .database = some ⟨.previous, old⟩) {x : File α} (htemp : s.files .temp = some x) :
    Safe upgrade old upload (cleanup f.cleanTemp s .temp) (.error e) ↔
      s.handle = .opened .previous ∧ f.cleanTemp = false := by
  rw [safe_iff_unopened hopened hrestore, handle_cleanup]
  simp [files_cleanup, hdatabase, htemp]

theorem replace_sound (hs : Running old s) (htemp : s.files .temp = some ⟨.uploaded, upload⟩) :
    Safe upgrade old upload (cleanup f.cleanTemp (replace upgrade f s).1 .temp) (replace upgrade f s).2 ↔
      if f.removeBackup = true ∧ s.files .backup ≠ none ∨ f.renameToBackup = true then
        f.closeDB = .keptOpen ∧ f.cleanTemp = false
      else SwapSound f := by
  have hclosed := files_closeDB f s
  have hdatabase : (closeDB f s).files .database = some ⟨.previous, old⟩ := by rw [hclosed]; exact hs.database
  have hsaved : (closeDB f s).files .temp = some ⟨.uploaded, upload⟩ := by rw [hclosed]; exact htemp
  rw [← handle_closeDB f hs, ← hclosed, replace]
  by_cases hremove : f.removeBackup = true ∧ (closeDB f s).files .backup ≠ none
  · rw [if_pos (.inl hremove), remove_none hremove]
    exact discarded_sound rfl rfl hdatabase hsaved
  · obtain ⟨s', hs', -, hhandle, hfiles⟩ := removed hremove
    have hdatabase' := (hfiles .database (by decide)).trans hdatabase
    have hsaved' := (hfiles .temp (by decide)).trans hsaved
    rw [hs']
    dsimp only
    cases hrename : f.renameToBackup with
    | true =>
      rw [if_pos (.inr rfl), rename_fails, ← hhandle]
      exact discarded_sound rfl rfl hdatabase' hsaved'
    | false =>
      rw [if_neg (not_or.mpr ⟨hremove, Bool.false_ne_true⟩), rename_some hdatabase']
      dsimp only
      refine swap_sound ⟨rfl, hsaved', rfl, ?_⟩
      rw [← handle_closeDB f hs, ← hhandle]
      exact Iff.rfl

theorem saveUpload_sound (hs : Running old s) : Safe upgrade old upload
    (cleanup f.cleanTemp (saveUpload upgrade f s upload).1 .temp) (saveUpload upgrade f s upload).2 ↔
      if f.copy ≠ none ∨ f.closeTemp = true ∨ f.integrity = true then f.cleanTemp = false
      else if f.removeBackup = true ∧ s.files .backup ≠ none ∨ f.renameToBackup = true then
        f.closeDB = .keptOpen ∧ f.cleanTemp = false
      else SwapSound f := by
  have hdiscard : ∀ (e : Err) (data : α), importOpened (.error e) = false → restoreFailed (.error e) = false →
      (Safe upgrade old upload (cleanup f.cleanTemp (write s .temp (some ⟨.uploaded, data⟩)) .temp) (.error e) ↔
        f.cleanTemp = false) := by
    intro e data hopened hrestore
    have hdatabase : (write s .temp (some ⟨.uploaded, data⟩)).files .database = some ⟨.previous, old⟩ := hs.database
    rw [discarded_sound hopened hrestore hdatabase (files_write s .temp .temp _)]
    exact and_iff_right hs.handle
  rw [saveUpload]
  cases hcopy : f.copy with
  | some part =>
    have hfails : some part ≠ none ∨ f.closeTemp = true ∨ f.integrity = true := .inl (Option.some_ne_none part)
    rw [if_pos hfails]
    exact hdiscard .saving part rfl rfl
  | none =>
    dsimp only
    cases hclose : f.closeTemp with
    | true =>
      rw [if_pos rfl, if_pos (.inr (.inl rfl))]
      exact hdiscard .closingTemp upload rfl rfl
    | false =>
      cases hintegrity : f.integrity with
      | true =>
        rw [if_neg Bool.false_ne_true, if_pos rfl, if_pos (.inr (.inr rfl))]
        exact hdiscard .corrupt upload rfl rfl
      | false =>
        rw [if_neg Bool.false_ne_true, if_neg Bool.false_ne_true, if_neg (by simp)]
        exact replace_sound ⟨hs.database, hs.handle⟩ (files_write s .temp .temp _)

theorem import_keeps_old_database (hs : Running old s) :
    Safe upgrade old upload (importDB upgrade f s upload).1 (importDB upgrade f s upload).2 ↔ Sound f s := by
  have huntouched : ∀ e : Err, importOpened (.error e) = false → restoreFailed (.error e) = false →
      (Safe upgrade old upload s (.error e) ↔ s.files .temp = none) := by
    intro e hopened hrestore
    rw [safe_iff_unopened hopened hrestore, hs.database, hs.handle]
    exact (and_iff_right rfl).trans (and_iff_right rfl)
  rw [importDB, Sound]
  cases hformat : f.format with
  | none =>
    have hrefused : none ≠ some true ∨ f.seek = true := .inl (Option.some_ne_none true).symm
    rw [if_pos hrefused]
    exact huntouched .checkingFormat rfl rfl
  | some valid =>
    cases valid with
    | false =>
      have hrefused : some false ≠ some true ∨ f.seek = true := .inl (by decide)
      rw [if_pos hrefused]
      exact huntouched .invalidFormat rfl rfl
    | true =>
      dsimp only
      cases hseek : f.seek with
      | true =>
        rw [if_pos rfl, if_pos (.inr rfl)]
        exact huntouched .resettingReader rfl rfl
      | false =>
        rw [if_neg Bool.false_ne_true, if_neg (by simp)]
        by_cases hremove : f.removeTemp = true ∧ s.files .temp ≠ none
        · rw [remove_none hremove, if_pos hremove]
          exact ⟨fun h => hremove.2 h.clean, False.elim⟩
        · obtain ⟨s', hs', htemp, hhandle, hfiles⟩ := removed hremove
          have hrunning : Running old s' :=
            ⟨(hfiles .database (by decide)).trans hs.database, hhandle.trans hs.handle⟩
          rw [hs', if_neg hremove]
          dsimp only
          cases hcreate : f.create with
          | true =>
            rw [if_pos rfl, if_pos rfl, safe_iff_unopened rfl rfl]
            exact ⟨fun _ => trivial, fun _ => ⟨hrunning.database, hrunning.handle, htemp⟩⟩
          | false =>
            rw [if_neg Bool.false_ne_true, if_neg Bool.false_ne_true, ← hfiles .backup (by decide)]
            exact saveUpload_sound hrunning

def sampleState : State Nat :=
  { files := Function.update (fun _ => none) .database (some ⟨.previous, 1⟩), handle := .opened .previous }

def notMoved : Faults Nat := { renameTemp := true }

def notMigratedNorRestored : Faults Nat := { initDB := .notMigrated 3, restore := true }

theorem import_keeps_old_database_corrupt :
    Safe (· + 1) 1 2 (importDB (· + 1) { integrity := true } sampleState 2).1
      (importDB (· + 1) { integrity := true } sampleState 2).2 := by
  refine (@import_keeps_old_database Nat (· + 1) 1 2 sampleState { integrity := true } ⟨rfl, rfl⟩).mpr ?_
  exact (rfl : false = false)

theorem closed_or_lost :
    (¬Safe (· + 1) 1 2 (importDB (· + 1) notMoved sampleState 2).1 (importDB (· + 1) notMoved sampleState 2).2) ∧
      ¬Safe (· + 1) 1 2 (importDB (· + 1) notMigratedNorRestored sampleState 2).1
        (importDB (· + 1) notMigratedNorRestored sampleState 2).2 := by
  constructor
  · intro h
    have hhandle := h.reopened rfl rfl
    revert hhandle
    decide
  · intro h
    have hkept := h.kept rfl
    revert hkept
    decide

end claim

end DatabaseImport

end QuiPanel
