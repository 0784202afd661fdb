import QuiPanel.Text
import QuiPanel.Library.JsonFields
import QuiPanel.Library.Refusals
import QuiPanel.Library.Table

namespace QuiPanel

namespace Groups

open Keyed Outcome List

structure Record where
  id : Int
  email : String
  group : String
  deriving DecidableEq

structure Inbound where
  id : Int
  settings : Option Json
  deriving DecidableEq

structure State where
  groups : List String
  records : List Record
  links : List (Int × Int)
  inbounds : Table Inbound (·.id)

inductive Err
  | message (text : String)
  | database
  | duplicateName
  | notFound
  deriving DecidableEq, Repr

inductive Step
  | countStored
  | countDerived
  | createGroup
  | deleteGroup
  | renameGroup
  | find (batch : Nat)
  | findMembers
  | update (batch : Nat)
  | pluck (batch : Nat)
  | load (inbound : Int)
  | save (inbound : Int)
  | commit
  deriving DecidableEq, Repr

abbrev Faults := Step → Bool

def sqlInChunk : Nat := 400

def chunkStrings (size : Nat) : Nat → List String → List (List String)
  | 0, _ => []
  | _ + 1, [] => []
  | fuel + 1, s :: ss => (s :: ss).take size :: chunkStrings size fuel ((s :: ss).drop size)

def batches (emails : List String) : List (List String) := chunkStrings sqlInChunk emails.length emails

def clientsOf (settings : Option Json) : Option (List Json) :=
  match settings.bind (Json.field "clients") with
  | some (.arr clients) => some clients
  | _ => none

def isObject : Json → Bool
  | .obj _ => true
  | _ => false

def stringField (key : String) (cm : Json) : Option String :=
  match cm.field key with
  | some (.str s) => some s
  | _ => none

def entryEmail (cm : Json) : String := (stringField "email" cm).getD ""

def entryGroup (cm : Json) : String := (stringField "group" cm).getD ""

def putGroup (group : String) (cm : Json) : Json :=
  if group = "" then cm.without ["group"] else cm.set "group" (.str group)

structure Edit where
  hit : Json → Bool
  group : String

def byEmail (emails : List String) (group : String) : Edit :=
  ⟨fun cm => isObject cm && emails.contains (entryEmail cm), group⟩

def byGroup (oldName newName : String) : Edit :=
  ⟨fun cm => isObject cm && stringField "group" cm == some oldName, newName⟩

def Edit.apply (e : Edit) (cm : Json) : Json := if e.hit cm then putGroup e.group cm else cm

def rewritten (e : Edit) (settings : Option Json) : Option Json :=
  match settings, clientsOf settings with
  | some v, some clients => if clients.any e.hit then some (v.set "clients" (.arr (clients.map e.apply))) else none
  | _, _ => none

def save (s : State) (id : Int) (settings : Json) : State :=
  { s with inbounds := s.inbounds.modify (·.id = id) (fun ib => { ib with settings := some settings }) fun _ => rfl }

def rewriteInbound (f : Faults) (e : Edit) (s : State) (id : Int) : Except Err State :=
  if f (.load id) then .error .database
  else match s.inbounds.find id with
    | none => .error .notFound
    | some ib => match rewritten e ib.settings with
      | none => .ok s
      | some settings => if f (.save id) then .error .database else .ok (save s id settings)

def findByEmails (f : Faults) (s : State) : Nat → List (List String) → Except Err (List Record)
  | _, [] => .ok []
  | n, batch :: rest =>
    if f (.find n) then .error .database
    else (findByEmails f s (n + 1) rest).map (s.records.filter (fun r => batch.contains r.email) ++ ·)

def updateByEmails (f : Faults) (group : String) : Nat → List (List String) → State → Except Err State
  | _, [], s => .ok s
  | n, batch :: rest, s =>
    if f (.update n) then .error .database
    else updateByEmails f group (n + 1) rest
      { s with records := s.records.map fun r => if batch.contains r.email then { r with group := group } else r }

def attachedTo (s : State) (batch : List String) : List Int :=
  ((s.links.filter fun l => s.records.any fun r => r.id == l.1 && batch.contains r.email).map (·.2)).dedup

def pluckInbounds (f : Faults) (s : State) : Nat → List (List String) → List Int → Except Err (List Int)
  | _, [], seen => .ok seen
  | n, batch :: rest, seen =>
    if f (.pluck n) then .error .database
    else pluckInbounds f s (n + 1) rest (seen ++ (attachedTo s batch).filter (· ∉ seen))

def rewriteAttached (f : Faults) (e : Edit) (emails : List String) (s : State) : Except Err State := do
  let ids ← pluckInbounds f s 0 (batches emails) []
  ids.foldlM (rewriteInbound f e) s

def transaction (f : Faults) (s : State) (body : Except Err State) : State × Except Err Unit :=
  match body with
  | .error e => (s, .error e)
  | .ok s' => exec (if f .commit then some .database else none) s s'

def ensureGroup (f : Faults) (s : State) (group : String) : State × Except Err Unit :=
  if group = "" then (s, .ok ())
  else if f .countStored then (s, .error .database)
  else if s.groups.contains group then (s, .ok ())
  else if f .countDerived then (s, .error .database)
  else if s.records.any (·.group == group) then (s, .ok ())
  else exec (if f .createGroup then some .database else none) s { s with groups := s.groups ++ [group] }

def addTx (f : Faults) (s : State) (emails : List String) (group : String) : Except Err State := do
  let s ← updateByEmails f group 0 (batches emails) s
  rewriteAttached f (byEmail emails group) emails s

def addToGroup (f : Faults) (s : State) (emails : List String) (group : String) : State × Except Err Nat :=
  let group := Text.trimSpace group
  if emails = [] then (s, .ok 0)
  else andThen (ensureGroup f s group) fun s _ =>
    match findByEmails f s 0 (batches emails) with
    | .error e => (s, .error e)
    | .ok records =>
      if records = [] then (s, .ok 0)
      else andThen (transaction f s (addTx f s (records.map (·.email)) group)) fun s _ => (s, .ok records.length)

def removeFromGroup (f : Faults) (s : State) (emails : List String) : State × Except Err Nat :=
  addToGroup f s emails ""

def moveGroup (f : Faults) (s : State) (oldName newName : String) : State × Except Err Unit :=
  if newName = "" then
    exec (if f .deleteGroup then some .database else none) s { s with groups := s.groups.filter (· ≠ oldName) }
  else
    exec (if f .renameGroup then some .database
        else if s.groups.contains oldName && s.groups.contains newName then some .duplicateName else none) s
      { s with groups := s.groups.map fun g => if g = oldName then newName else g }

def replaceTx (f : Faults) (s : State) (emails : List String) (oldName newName : String) : Except Err State :=
  if f (.update 0) then .error .database
  else rewriteAttached f (byGroup oldName newName) emails
    { s with records := s.records.map fun r => if r.group = oldName then { r with group := newName } else r }

def replaceGroupValue (f : Faults) (s : State) (oldName newName : String) : State × Except Err Nat :=
  andThen (moveGroup f s oldName newName) fun s _ =>
    if f .findMembers then (s, .error .database)
    else
      let records := s.records.filter (·.group = oldName)
      if records = [] then (s, .ok 0)
      else andThen (transaction f s (replaceTx f s (records.map (·.email)) oldName newName)) fun s _ =>
        (s, .ok records.length)

def renameGroup (f : Faults) (s : State) (oldName newName : String) : State × Except Err Nat :=
  let oldName := Text.trimSpace oldName
  let newName := Text.trimSpace newName
  if oldName = "" then (s, .error (.message "old group name is required"))
  else if newName = "" then (s, .error (.message "new group name is required"))
  else if oldName = newName then (s, .ok 0)
  else replaceGroupValue f s oldName newName

def deleteGroup (f : Faults) (s : State) (name : String) : State × Except Err Nat :=
  let name := Text.trimSpace name
  if name = "" then (s, .error (.message "group name is required"))
  else replaceGroupValue f s name ""

inductive Call
  | addToGroup (emails : List String) (group : String)
  | removeFromGroup (emails : List String)
  | renameGroup (oldName newName : String)
  | deleteGroup (name : String)

def perform (f : Faults) (s : State) : Call → State × Except Err Nat
  | .addToGroup emails group => addToGroup f s emails group
  | .removeFromGroup emails => removeFromGroup f s emails
  | .renameGroup oldName newName => renameGroup f s oldName newName
  | .deleteGroup name => deleteGroup f s name

def run (s : State) : List (Faults × Call) → State
  | [] => s
  | (f, call) :: rest => run (perform f s call).1 rest

def entries (ib : Inbound) : List Json := ((clientsOf ib.settings).getD []).filter isObject

def entriesAt (s : State) (id : Int) : List Json := ((s.inbounds.find id).map entries).getD []

def Agree (s : State) : Prop :=
  ∀ r ∈ s.records, ∀ id, ∀ cm ∈ entriesAt s id, entryEmail cm = r.email → entryGroup cm = r.group

def named (r : Record) : Call → Bool
  | .addToGroup emails _ => emails.contains r.email
  | .removeFromGroup emails => emails.contains r.email
  | .renameGroup oldName _ => r.group == Text.trimSpace oldName
  | .deleteGroup name => r.group == Text.trimSpace name

def Used (s : State) (group : String) : Prop := group ∈ s.groups ∨ ∃ r ∈ s.records, r.group = group

structure Held (s : State) (call : Call) (s' : State) (result : Except Err Nat) : Prop where
  agree : Agree s'
  kept : ∀ r ∈ s.records, named r call = false → r ∈ s'.records ∧ ∀ id,
    (entriesAt s' id).filter (entryEmail · = r.email) = (entriesAt s id).filter (entryEmail · = r.email)
  refused : ∀ e, result = .error e → s' = s
  rows : ∀ oldName newName n, call = .renameGroup oldName newName → result = .ok n →
    s'.groups = s.groups.map fun g => if g = Text.trimSpace oldName then Text.trimSpace newName else g
  unmerged : ∀ oldName newName n, call = .renameGroup oldName newName → result = .ok n →
    Text.trimSpace oldName ≠ Text.trimSpace newName → Used s (Text.trimSpace oldName) →
      ¬Used s (Text.trimSpace newName)

def target : Call → Option String
  | .addToGroup _ group => some (Text.trimSpace group)
  | .removeFromGroup _ => some ""
  | .renameGroup oldName newName =>
    if Text.trimSpace oldName = "" ∨ Text.trimSpace newName = "" then none else some (Text.trimSpace newName)
  | .deleteGroup name => if Text.trimSpace name = "" then none else some ""

def Touches (f : Faults) (s : State) : Call → Prop
  | .addToGroup emails group => emails ≠ [] ∧ Text.trimSpace group ≠ "" ∧ ¬Used s (Text.trimSpace group) ∧
      f .countStored = false ∧ f .countDerived = false ∧ f .createGroup = false
  | .removeFromGroup _ => False
  | .renameGroup oldName newName => Text.trimSpace oldName ≠ "" ∧ Text.trimSpace newName ≠ "" ∧
      Text.trimSpace oldName ≠ Text.trimSpace newName ∧ Text.trimSpace oldName ∈ s.groups ∧
        Text.trimSpace newName ∉ s.groups ∧ f .renameGroup = false
  | .deleteGroup name => Text.trimSpace name ≠ "" ∧ Text.trimSpace name ∈ s.groups ∧ f .deleteGroup = false

structure Smooth (f : Faults) (s : State) (call : Call) : Prop where
  steps : ∀ st, f st = false
  found : ∀ r ∈ s.records, (∃ r' ∈ s.records, named r' call = true ∧ r'.email = r.email) →
    ∀ id, (r.id, id) ∈ s.links → s.inbounds.find id ≠ none

structure Fair (f : Faults) (s : State) (call : Call) : Prop where
  attached : ∀ group, target call = some group → ∀ r ∈ s.records, named r call = true → r.group ≠ group →
    ∀ id, ∀ cm ∈ entriesAt s id, entryEmail cm = r.email → (r.id, id) ∈ s.links
  smooth : Touches f s call → Smooth f s call
  apart : ∀ oldName newName, call = .renameGroup oldName newName →
    Text.trimSpace oldName ≠ Text.trimSpace newName → Used s (Text.trimSpace oldName) →
      Used s (Text.trimSpace newName) → Text.trimSpace newName ≠ "" → f .renameGroup = true ∨
        Text.trimSpace oldName ∈ s.groups ∧ Text.trimSpace newName ∈ s.groups

def FairRun (s : State) : List (Faults × Call) → Prop
  | [] => True
  | (f, call) :: rest => Fair f s call ∧ FairRun (perform f s call).1 rest

section entries

variable {e : Edit} {cm : Json} {s s' : State} {f : Faults} {id : Int} {ids seen : List Int} {bs : List (List String)}
  {batch emails : List String} {group : String}

theorem isObject_putGroup (group : String) (cm : Json) : isObject (putGroup group cm) = isObject cm := by
  rw [putGroup]
  split_ifs <;> cases cm <;> rfl

theorem entryEmail_putGroup (group : String) (cm : Json) : entryEmail (putGroup group cm) = entryEmail cm := by
  have hfield : (putGroup group cm).field "email" = cm.field "email" := by
    rw [putGroup]
    split_ifs
    · exact Json.field_without (by decide)
    · exact Json.field_set (by decide)
  rw [entryEmail, entryEmail, stringField, stringField, hfield]

theorem entryGroup_putGroup (group : String) (h : isObject cm = true) : entryGroup (putGroup group cm) = group := by
  rw [entryGroup, stringField, putGroup]
  split_ifs with hempty
  · rw [Json.field_without_self, hempty]
    rfl
  · cases cm with
    | obj fields =>
      rw [Json.field_set_self]
      rfl
    | _ => cases h

theorem isObject_apply (e : Edit) (cm : Json) : isObject (e.apply cm) = isObject cm := by
  rw [Edit.apply]
  split_ifs
  · exact isObject_putGroup e.group cm
  · rfl

theorem entryEmail_apply (e : Edit) (cm : Json) : entryEmail (e.apply cm) = entryEmail cm := by
  rw [Edit.apply]
  split_ifs
  · exact entryEmail_putGroup e.group cm
  · rfl

theorem entries_set (e : Edit) {v : Json} {clients : List Json} (h : clientsOf (some v) = some clients) :
    entries ⟨id, some (v.set "clients" (.arr (clients.map e.apply)))⟩ = (clients.filter isObject).map e.apply := by
  cases v with
  | obj fields =>
    have hset : clientsOf (some ((Json.obj fields).set "clients" (.arr (clients.map e.apply)))) =
        some (clients.map e.apply) := by
      rw [clientsOf, Option.bind_some, Json.field_set_self]
    rw [entries, hset, Option.getD_some, filter_map]
    congr 1
    exact filter_congr fun cm _ => isObject_apply e cm
  | _ => cases h

theorem map_apply_of_no_hit {clients : List Json} (h : ¬clients.any e.hit = true) :
    clients.map e.apply = clients := by
  refine (map_congr_left fun cm hcm => ?_).trans (map_id clients)
  rw [Edit.apply, if_neg fun hhit => h (any_eq_true.mpr ⟨cm, hcm, hhit⟩)]
  rfl

theorem entries_rewritten (e : Edit) (ib : Inbound) :
    (match rewritten e ib.settings with
      | none => entries ib
      | some settings => entries ⟨ib.id, some settings⟩) = (entries ib).map e.apply := by
  obtain ⟨ibId, settings⟩ := ib
  cases settings with
  | none => rfl
  | some v =>
    cases hclients : clientsOf (some v) with
    | none =>
      simp only [rewritten, entries, hclients]
      rfl
    | some clients =>
      simp only [rewritten, hclients]
      split_ifs with hany
      · dsimp only
        rw [entries_set e hclients, entries, hclients]
        rfl
      · have hfilter : ¬(clients.filter isObject).any e.hit = true := fun h => hany (by
          obtain ⟨cm, hcm, hhit⟩ := any_eq_true.mp h
          exact any_eq_true.mpr ⟨cm, mem_of_mem_filter hcm, hhit⟩)
        dsimp only
        rw [entries, hclients, Option.getD_some, map_apply_of_no_hit hfilter]

theorem entriesAt_save (s : State) (settings : Json) {ib : Inbound} (h : s.inbounds.find id = some ib) (other : Int) :
    entriesAt (save s id settings) other =
      if other = id then entries ⟨ib.id, some settings⟩ else entriesAt s other := by
  rw [entriesAt, entriesAt, save, Table.find_modify]
  split_ifs with hid
  · rw [hid, h]
    have hkey := (Table.mem_of_find h).2
    simp only [Option.map_some, hkey, decide_true, if_true, Option.getD_some]
  · cases hother : s.inbounds.find other with
    | none => rfl
    | some ib' =>
      have hkey := (Table.mem_of_find hother).2
      simp only [Option.map_some, hkey, hid, decide_false, Bool.false_eq_true, if_false]

structure Edited (e : Edit) (covered : Int → Prop) (s s' : State) : Prop where
  groups : s'.groups = s.groups
  links : s'.links = s.links
  records : s'.records = s.records
  inside : ∀ id, covered id → entriesAt s' id = (entriesAt s id).map e.apply
  outside : ∀ id, ¬covered id → entriesAt s' id = entriesAt s id

theorem rewriteInbound_edited (h : rewriteInbound f e s id = .ok s') : Edited e (· = id) s s' := by
  rw [rewriteInbound] at h
  split at h
  · cases h
  cases hfind : s.inbounds.find id with
  | none =>
    rw [hfind] at h
    cases h
  | some ib =>
    have hentries := entries_rewritten e ib
    have hat : entriesAt s id = entries ib := by rw [entriesAt, hfind]; rfl
    rw [hfind] at h
    dsimp only at h
    cases hsettings : rewritten e ib.settings with
    | none =>
      rw [hsettings] at h hentries
      obtain rfl := Except.ok.inj h
      refine ⟨rfl, rfl, rfl, ?_, fun _ _ => rfl⟩
      rintro _ rfl
      rw [hat]
      exact hentries
    | some settings =>
      rw [hsettings] at h hentries
      dsimp only at h hentries
      split_ifs at h
      obtain rfl := Except.ok.inj h
      refine ⟨rfl, rfl, rfl, ?_, ?_⟩
      · rintro _ rfl
        rw [entriesAt_save s settings hfind, if_pos rfl, hat]
        exact hentries
      · intro other hother
        rw [entriesAt_save s settings hfind, if_neg hother]

theorem rewriteAll_edited (hnodup : ids.Nodup) (h : ids.foldlM (rewriteInbound f e) s = .ok s') :
    Edited e (· ∈ ids) s s' := by
  induction ids generalizing s with
  | nil =>
    obtain rfl := Except.ok.inj h
    exact ⟨rfl, rfl, rfl, fun _ hid => absurd hid not_mem_nil, fun _ _ => rfl⟩
  | cons id ids ih =>
    obtain ⟨hid, hnodup⟩ := nodup_cons.mp hnodup
    rw [foldlM_cons, bind_ok] at h
    obtain ⟨mid, hmid, hrest⟩ := h
    have hfirst := rewriteInbound_edited hmid
    have hothers := ih hnodup hrest
    refine ⟨hothers.groups.trans hfirst.groups, hothers.links.trans hfirst.links,
      hothers.records.trans hfirst.records,
      fun other hother => ?_, fun other hother => ?_⟩
    · rcases mem_cons.mp hother with rfl | hin
      · rw [hothers.outside other hid, hfirst.inside other rfl]
      · have hne : other ≠ id := fun heq => hid (heq ▸ hin)
        rw [hothers.inside other hin, hfirst.outside other hne]
    · rw [mem_cons, not_or] at hother
      rw [hothers.outside other hother.2, hfirst.outside other hother.1]

end entries

section batches

variable {e : Edit} {s s' : State} {f : Faults} {id : Int} {ids seen : List Int} {bs : List (List String)}
  {batch emails : List String} {group : String} {records : List Record} {n : Nat}

theorem flatten_chunkStrings {size fuel : Nat} (hsize : 0 < size) (ss : List String) (h : ss.length ≤ fuel) :
    (chunkStrings size fuel ss).flatten = ss := by
  induction fuel generalizing ss with
  | zero => rw [length_eq_zero_iff.mp (Nat.le_zero.mp h), chunkStrings, flatten_nil]
  | succ fuel ih =>
    cases ss with
    | nil => rfl
    | cons t ss =>
      have hdrop : ((t :: ss).drop size).length ≤ fuel := by
        rw [length_drop]
        omega
      rw [chunkStrings, flatten_cons, ih _ hdrop, take_append_drop]

theorem mem_batches (emails : List String) (email : String) :
    (∃ batch ∈ batches emails, email ∈ batch) ↔ email ∈ emails := by
  rw [← mem_flatten, batches, flatten_chunkStrings (by decide) emails (le_refl _)]

theorem mem_findByEmails (h : findByEmails f s n bs = .ok records) (r : Record) :
    r ∈ records ↔ r ∈ s.records ∧ ∃ batch ∈ bs, r.email ∈ batch := by
  induction bs generalizing n records with
  | nil =>
    obtain rfl := Except.ok.inj h
    simp
  | cons batch bs ih =>
    rw [findByEmails] at h
    split at h
    · cases h
    cases hrest : findByEmails f s (n + 1) bs with
    | error err =>
      rw [hrest] at h
      cases h
    | ok found =>
      rw [hrest] at h
      obtain rfl := Except.ok.inj h
      simp only [mem_append, mem_filter, contains_iff_mem, ih hrest, exists_mem_cons_iff]
      tauto

def regrouped (p : Record → Bool) (group : String) (r : Record) : Record :=
  if p r then { r with group := group } else r

@[simp] theorem regrouped_email (p : Record → Bool) (group : String) (r : Record) :
    (regrouped p group r).email = r.email := by
  rw [regrouped]
  split <;> rfl

@[simp] theorem regrouped_id (p : Record → Bool) (group : String) (r : Record) : (regrouped p group r).id = r.id := by
  rw [regrouped]
  split <;> rfl

theorem updateByEmails_ok (h : updateByEmails f group n bs s = .ok s') : s' = { s with
    records := s.records.map (regrouped (fun r => bs.any fun batch => batch.contains r.email) group) } := by
  induction bs generalizing n s with
  | nil =>
    obtain rfl := Except.ok.inj h
    have hid : regrouped (fun r => ([] : List (List String)).any fun batch => batch.contains r.email) group = id :=
      rfl
    rw [hid, map_id]
  | cons batch bs ih =>
    rw [updateByEmails] at h
    split at h
    · cases h
    rw [ih h]
    dsimp only
    rw [map_map]
    congr 1
    refine map_congr_left fun r _ => ?_
    rw [Function.comp_apply, regrouped, regrouped, any_cons]
    cases batch.contains r.email
    · rfl
    · simp

theorem mem_attachedTo : id ∈ attachedTo s batch ↔ ∃ r ∈ s.records, r.email ∈ batch ∧ (r.id, id) ∈ s.links := by
  rw [attachedTo, mem_dedup, mem_map]
  constructor
  · rintro ⟨⟨clientId, inboundId⟩, hl, rfl⟩
    obtain ⟨hlink, hany⟩ := mem_filter.mp hl
    obtain ⟨r, hr, hmatch⟩ := any_eq_true.mp hany
    rw [Bool.and_eq_true, beq_iff_eq, contains_iff_mem] at hmatch
    obtain ⟨rfl, hemail⟩ := hmatch
    exact ⟨r, hr, hemail, hlink⟩
  · rintro ⟨r, hr, hemail, hlink⟩
    refine ⟨(r.id, id), mem_filter.mpr ⟨hlink, any_eq_true.mpr ⟨r, hr, ?_⟩⟩, rfl⟩
    rw [Bool.and_eq_true, beq_iff_eq, contains_iff_mem]
    exact ⟨rfl, hemail⟩

theorem pluckInbounds_ok (hseen : seen.Nodup) (h : pluckInbounds f s n bs seen = .ok ids) :
    ids.Nodup ∧ ∀ id, id ∈ ids ↔ id ∈ seen ∨ ∃ batch ∈ bs, id ∈ attachedTo s batch := by
  induction bs generalizing n seen with
  | nil =>
    obtain rfl := Except.ok.inj h
    exact ⟨hseen, fun id => by simp⟩
  | cons batch bs ih =>
    rw [pluckInbounds] at h
    split at h
    · cases h
    have hnodup : (seen ++ (attachedTo s batch).filter (· ∉ seen)).Nodup := by
      refine nodup_append'.mpr ⟨hseen, (nodup_dedup _).filter _, fun id hid hnew => ?_⟩
      exact absurd hid (by simpa using (mem_filter.mp hnew).2)
    obtain ⟨hids, hmem⟩ := ih hnodup h
    refine ⟨hids, fun id => ?_⟩
    rw [hmem, mem_append, mem_filter, exists_mem_cons_iff, decide_eq_true_eq]
    tauto

def Covered (s : State) (p : Record → Bool) (id : Int) : Prop := ∃ r ∈ s.records, p r = true ∧ (r.id, id) ∈ s.links

theorem rewriteAttached_edited (h : rewriteAttached f e emails s = .ok s') :
    Edited e (Covered s fun r => emails.contains r.email) s s' := by
  rw [rewriteAttached, bind_ok] at h
  obtain ⟨ids, hids, hfold⟩ := h
  obtain ⟨hnodup, hmem⟩ := pluckInbounds_ok nodup_nil hids
  have hedited := rewriteAll_edited hnodup hfold
  have hcovered : ∀ id, id ∈ ids ↔ Covered s (fun r => emails.contains r.email) id := by
    intro id
    rw [hmem]
    simp only [not_mem_nil, false_or, mem_attachedTo, Covered, contains_iff_mem, ← mem_batches emails]
    constructor
    · rintro ⟨batch, hbatch, r, hr, hemail, hlink⟩
      exact ⟨r, hr, ⟨batch, hbatch, hemail⟩, hlink⟩
    · rintro ⟨r, hr, ⟨batch, hbatch, hemail⟩, hlink⟩
      exact ⟨batch, hbatch, r, hr, hemail, hlink⟩
  exact ⟨hedited.groups, hedited.links, hedited.records, fun id hid => hedited.inside id ((hcovered id).mpr hid),
    fun id hid => hedited.outside id fun hin => hid ((hcovered id).mp hin)⟩

structure Moved (e : Edit) (p : Record → Bool) (s s' : State) : Prop where
  groups : s'.groups = s.groups
  records : s'.records = s.records.map (regrouped p e.group)
  entries : ∀ id, entriesAt s' id = (entriesAt s id).map e.apply ∨
    ¬Covered s p id ∧ entriesAt s' id = entriesAt s id

theorem Moved.congr {p q : Record → Bool} (h : Moved e p s s') (hpq : ∀ r ∈ s.records, p r = q r) :
    Moved e q s s' := by
  refine ⟨h.groups, h.records.trans (map_congr_left fun r hr => ?_), fun id => ?_⟩
  · rw [regrouped, regrouped, hpq r hr]
  · rcases h.entries id with hmap | ⟨hout, hsame⟩
    · exact .inl hmap
    · exact .inr ⟨fun ⟨r, hr, hq, hlink⟩ => hout ⟨r, hr, (hpq r hr).trans hq, hlink⟩, hsame⟩

theorem moved_of_edited {p : Record → Bool} (hedited : Edited e (Covered
      { s with records := s.records.map (regrouped p e.group) } fun r => emails.contains r.email)
      { s with records := s.records.map (regrouped p e.group) } s')
    (hp : ∀ r ∈ s.records, p r = true → r.email ∈ emails) : Moved e p s s' := by
  refine ⟨hedited.groups, hedited.records, fun id => ?_⟩
  by_cases hcovered : Covered { s with records := s.records.map (regrouped p e.group) }
    (fun r => emails.contains r.email) id
  · exact .inl (hedited.inside id hcovered)
  · refine .inr ⟨fun ⟨r, hr, hpr, hlink⟩ => hcovered ⟨regrouped p e.group r, mem_map_of_mem hr, ?_, ?_⟩,
      hedited.outside id hcovered⟩
    · dsimp only
      rw [regrouped_email]
      exact contains_iff_mem.mpr (hp r hr hpr)
    · rw [regrouped_id]
      exact hlink

theorem addTx_moved (h : addTx f s emails group = .ok s') :
    Moved (byEmail emails group) (fun r => emails.contains r.email) s s' := by
  rw [addTx, bind_ok] at h
  obtain ⟨mid, hmid, hrest⟩ := h
  have hany : (fun r : Record => (batches emails).any fun batch => batch.contains r.email) =
      fun r => emails.contains r.email := by
    funext r
    rw [Bool.eq_iff_iff, any_eq_true, contains_iff_mem, ← mem_batches emails]
    simp only [contains_iff_mem]
  obtain rfl := updateByEmails_ok hmid
  rw [hany] at hrest
  exact moved_of_edited (rewriteAttached_edited hrest) fun r _ hr => contains_iff_mem.mp hr

theorem replaceTx_moved {oldName newName : String} (h : replaceTx f s emails oldName newName = .ok s')
    (hemails : ∀ r ∈ s.records, r.group = oldName → r.email ∈ emails) :
    Moved (byGroup oldName newName) (fun r => r.group == oldName) s s' := by
  rw [replaceTx] at h
  split at h
  · cases h
  have hregroup : (fun r : Record => if r.group = oldName then { r with group := newName } else r) =
      regrouped (fun r => r.group == oldName) newName := by
    funext r
    simp only [regrouped, beq_iff_eq]
  rw [hregroup] at h
  exact moved_of_edited (rewriteAttached_edited h) fun r hr hgroup => hemails r hr (beq_iff_eq.mp hgroup)

end batches

section agreement

variable {e : Edit} {p : Record → Bool} {s s' : State} {f : Faults} {gs : List String} {call : Call}
  {emails : List String} {group oldName newName : String}

theorem isObject_of_mem {cm : Json} {id : Int} (h : cm ∈ entriesAt s id) : isObject cm = true := by
  rw [entriesAt] at h
  cases hfind : s.inbounds.find id with
  | none =>
    rw [hfind] at h
    cases h
  | some ib =>
    rw [hfind] at h
    exact (mem_filter.mp h).2

def Matches (e : Edit) (p : Record → Bool) (s : State) : Prop :=
  ∀ r ∈ s.records, ∀ id, ∀ cm ∈ entriesAt s id, entryEmail cm = r.email → e.hit cm = p r

theorem matches_byEmail (emails : List String) (group : String) (s : State) :
    Matches (byEmail emails group) (fun r => emails.contains r.email) s := by
  intro r _ id cm hcm hemail
  rw [byEmail]
  dsimp only
  rw [isObject_of_mem hcm, hemail, Bool.true_and]

theorem matches_byGroup (hagree : Agree s) (hold : oldName ≠ "") (newName : String) :
    Matches (byGroup oldName newName) (fun r => r.group == oldName) s := by
  intro r hr id cm hcm hemail
  have hgroup := hagree r hr id cm hcm hemail
  rw [byGroup]
  dsimp only
  rw [isObject_of_mem hcm, Bool.true_and, ← hgroup, entryGroup]
  cases stringField "group" cm with
  | none =>
    rw [Option.getD_none]
    exact (beq_false_of_ne hold.symm).symm
  | some g => rfl

theorem agree_of_moved (hagree : Agree s) (hmoved : Moved e p s s') (hmatches : Matches e p s)
    (hattached : ∀ r ∈ s.records, p r = true → r.group ≠ e.group → ∀ id, ∀ cm ∈ entriesAt s id,
      entryEmail cm = r.email → (r.id, id) ∈ s.links) : Agree s' := by
  intro r' hr' id cm' hcm' hemail
  rw [hmoved.records] at hr'
  obtain ⟨r, hr, rfl⟩ := mem_map.mp hr'
  rw [regrouped_email] at hemail
  rcases hmoved.entries id with hmap | ⟨hout, hsame⟩
  · rw [hmap] at hcm'
    obtain ⟨cm, hcm, rfl⟩ := mem_map.mp hcm'
    rw [entryEmail_apply] at hemail
    rw [Edit.apply, regrouped, hmatches r hr id cm hcm hemail]
    cases p r with
    | true => exact entryGroup_putGroup e.group (isObject_of_mem hcm)
    | false => exact hagree r hr id cm hcm hemail
  · rw [hsame] at hcm'
    have hgroup := hagree r hr id cm' hcm' hemail
    rw [hgroup, regrouped]
    split
    case isTrue hp =>
      by_contra hne
      exact hout ⟨r, hr, hp, hattached r hr hp hne id cm' hcm' hemail⟩
    case isFalse => rfl

theorem kept_of_moved (hmoved : Moved e p s s') (hmatches : Matches e p s) {r : Record} (hr : r ∈ s.records)
    (hp : p r = false) : r ∈ s'.records ∧ ∀ id,
      (entriesAt s' id).filter (entryEmail · = r.email) = (entriesAt s id).filter (entryEmail · = r.email) := by
  constructor
  · rw [hmoved.records, mem_map]
    exact ⟨r, hr, by rw [regrouped, hp]; rfl⟩
  · intro id
    rcases hmoved.entries id with hmap | ⟨-, hsame⟩
    · have hemail : ∀ cm, decide (entryEmail (e.apply cm) = r.email) = decide (entryEmail cm = r.email) := by
        intro cm
        rw [entryEmail_apply]
      rw [hmap, filter_map]
      simp only [Function.comp_def, hemail]
      refine (map_congr_left fun cm hcm => ?_).trans (map_id _)
      obtain ⟨hin, hsame⟩ := mem_filter.mp hcm
      rw [Edit.apply, hmatches r hr id cm hin (of_decide_eq_true hsame), hp]
      rfl
    · rw [hsame]

structure Performed (f : Faults) (s : State) (call : Call) (gs : List String) (r : State × Except Err Nat) :
    Prop where
  written : gs = s.groups ∨ Touches f s call
  result : r.1 = { s with groups := gs } ∨ (∃ n, r.2 = .ok n) ∧ ∃ e : Edit, target call = some e.group ∧
    (Agree s → Matches e (named · call) s) ∧ Moved e (named · call) { s with groups := gs } r.1

theorem transaction_cases (f : Faults) (s : State) (body : Except Err State) (n : Nat) :
    (andThen (transaction f s body) fun s _ => (s, (.ok n : Except Err Nat))).1 = s ∨
      ∃ s', body = .ok s' ∧
        (andThen (transaction f s body) fun s _ => (s, (.ok n : Except Err Nat))) = (s', .ok n) := by
  cases body with
  | error err => exact .inl rfl
  | ok s' =>
    rw [transaction]
    cases f .commit with
    | true => exact .inl rfl
    | false => exact .inr ⟨s', rfl, rfl⟩

theorem ensureGroup_cases (f : Faults) (s : State) (group : String) :
    ∃ gs, (ensureGroup f s group).1 = { s with groups := gs } ∧ (gs = s.groups ∨ group ≠ "" ∧ ¬Used s group ∧
      f .countStored = false ∧ f .countDerived = false ∧ f .createGroup = false) := by
  rw [ensureGroup]
  split
  · exact ⟨s.groups, rfl, .inl rfl⟩
  case isFalse hempty =>
    split
    · exact ⟨s.groups, rfl, .inl rfl⟩
    case isFalse hstored =>
      split
      · exact ⟨s.groups, rfl, .inl rfl⟩
      case isFalse hgroups =>
        split
        · exact ⟨s.groups, rfl, .inl rfl⟩
        case isFalse hderived =>
          split
          · exact ⟨s.groups, rfl, .inl rfl⟩
          case isFalse hrecords =>
            cases hcreate : f .createGroup with
            | true => exact ⟨s.groups, rfl, .inl rfl⟩
            | false =>
              refine ⟨s.groups ++ [group], rfl, .inr ⟨hempty, ?_, Bool.not_eq_true _ ▸ hstored,
                Bool.not_eq_true _ ▸ hderived, rfl⟩⟩
              rintro (hin | ⟨r, hr, hgroup⟩)
              · exact hgroups (contains_iff_mem.mpr hin)
              · exact hrecords (any_eq_true.mpr ⟨r, hr, beq_iff_eq.mpr hgroup⟩)

theorem addToGroup_performed (htarget : target call = some (Text.trimSpace group))
    (hnamed : ∀ r : Record, named r call = emails.contains r.email)
    (htouches : emails ≠ [] → Text.trimSpace group ≠ "" → ¬Used s (Text.trimSpace group) → f .countStored = false →
      f .countDerived = false → f .createGroup = false → Touches f s call) :
    ∃ gs, Performed f s call gs (addToGroup f s emails group) := by
  rw [addToGroup]
  split
  · exact ⟨s.groups, .inl rfl, .inl rfl⟩
  case isFalse hne =>
    obtain ⟨gs, hstate, hgs⟩ := ensureGroup_cases f s (Text.trimSpace group)
    have hwritten : gs = s.groups ∨ Touches f s call :=
      hgs.imp_right fun ⟨hempty, hused, hstored, hderived, hcreate⟩ =>
        htouches hne hempty hused hstored hderived hcreate
    rcases he : ensureGroup f s (Text.trimSpace group) with ⟨s1, r1⟩
    rw [he] at hstate
    obtain rfl : s1 = { s with groups := gs } := hstate
    refine ⟨gs, hwritten, ?_⟩
    cases r1 with
    | error err => exact .inl rfl
    | ok u =>
      rw [andThen]
      cases hfind : findByEmails f { s with groups := gs } 0 (batches emails) with
      | error err => exact .inl rfl
      | ok records =>
        dsimp only
        split
        · exact .inl rfl
        rcases transaction_cases f { s with groups := gs }
          (addTx f { s with groups := gs } (records.map (·.email)) (Text.trimSpace group))
          records.length with hsame | ⟨s', hbody, hdone⟩
        · exact .inl hsame
        · rw [hdone]
          have hcontains : ∀ r ∈ s.records, (records.map (·.email)).contains r.email = named r call := by
            intro r hr
            rw [hnamed, Bool.eq_iff_iff, contains_iff_mem, contains_iff_mem, mem_map]
            constructor
            · rintro ⟨r', hr', hemail⟩
              rw [← hemail, ← mem_batches emails]
              exact ((mem_findByEmails hfind r').mp hr').2
            · exact fun hin => ⟨r, (mem_findByEmails hfind r).mpr ⟨hr, (mem_batches emails r.email).mpr hin⟩, rfl⟩
          refine .inr ⟨⟨_, rfl⟩, byEmail (records.map (·.email)) (Text.trimSpace group), htarget, fun _ => ?_,
            (addTx_moved hbody).congr hcontains⟩
          intro r hr id cm hcm hemail
          rw [matches_byEmail _ _ s r hr id cm hcm hemail]
          exact hcontains r hr

theorem moveGroup_cases (f : Faults) (s : State) (oldName newName : String) :
    (∃ err, moveGroup f s oldName newName = (s, .error err)) ∨
      ∃ gs, moveGroup f s oldName newName = ({ s with groups := gs }, .ok ()) ∧
        ((newName = "" ∧ f .deleteGroup = false ∧ gs = s.groups.filter (· ≠ oldName)) ∨
          newName ≠ "" ∧ f .renameGroup = false ∧ ¬(oldName ∈ s.groups ∧ newName ∈ s.groups) ∧
            gs = s.groups.map fun g => if g = oldName then newName else g) := by
  rw [moveGroup]
  split
  case isTrue hempty =>
    cases hdelete : f .deleteGroup with
    | true => exact .inl ⟨_, rfl⟩
    | false => exact .inr ⟨_, rfl, .inl ⟨hempty, rfl, rfl⟩⟩
  case isFalse hempty =>
    cases hrename : f .renameGroup with
    | true => exact .inl ⟨_, rfl⟩
    | false =>
      rw [if_neg Bool.false_ne_true]
      split
      · exact .inl ⟨_, rfl⟩
      case isFalse hboth =>
        refine .inr ⟨_, rfl, .inr ⟨hempty, rfl, fun ⟨hold, hnew⟩ => hboth ?_, rfl⟩⟩
        rw [Bool.and_eq_true]
        exact ⟨contains_iff_mem.mpr hold, contains_iff_mem.mpr hnew⟩

theorem replaceGroupValue_result (hold : oldName ≠ "") (htarget : target call = some newName)
    (hnamed : ∀ r : Record, named r call = (r.group == oldName)) (hmove : moveGroup f s oldName newName =
      ({ s with groups := gs }, .ok ())) : (replaceGroupValue f s oldName newName).1 = { s with groups := gs } ∨
        (∃ n, (replaceGroupValue f s oldName newName).2 = .ok n) ∧ ∃ e : Edit, target call = some e.group ∧
          (Agree s → Matches e (named · call) s) ∧ Moved e (named · call) { s with groups := gs }
            (replaceGroupValue f s oldName newName).1 := by
  rw [replaceGroupValue, hmove, andThen]
  split
  · exact .inl rfl
  dsimp only
  split
  · exact .inl rfl
  rcases transaction_cases f { s with groups := gs }
    (replaceTx f { s with groups := gs } ((s.records.filter (·.group = oldName)).map (·.email)) oldName newName)
    (s.records.filter (·.group = oldName)).length with hsame | ⟨s', hbody, hdone⟩
  · exact .inl hsame
  · rw [hdone]
    have hmoved := replaceTx_moved hbody fun r hr hgroup => mem_map_of_mem
      (mem_filter.mpr ⟨hr, decide_eq_true hgroup⟩)
    refine .inr ⟨⟨_, rfl⟩, byGroup oldName newName, htarget, fun hagree => ?_,
      hmoved.congr fun r _ => (hnamed r).symm⟩
    intro r hr id cm hcm hemail
    rw [matches_byGroup hagree hold newName r hr id cm hcm hemail]
    exact (hnamed r).symm

theorem perform_performed (f : Faults) (s : State) (call : Call) :
    ∃ gs, Performed f s call gs (perform f s call) := by
  cases call with
  | addToGroup emails group =>
    exact addToGroup_performed rfl (fun _ => rfl) fun hne hempty hused hstored hderived hcreate =>
      ⟨hne, hempty, hused, hstored, hderived, hcreate⟩
  | removeFromGroup emails =>
    exact addToGroup_performed rfl (fun _ => rfl) fun _ hempty => absurd rfl hempty
  | renameGroup oldName newName =>
    rw [perform, renameGroup]
    split
    · exact ⟨s.groups, .inl rfl, .inl rfl⟩
    case isFalse hold =>
      split
      · exact ⟨s.groups, .inl rfl, .inl rfl⟩
      case isFalse hnew =>
        split
        · exact ⟨s.groups, .inl rfl, .inl rfl⟩
        case isFalse hne =>
          rcases moveGroup_cases f s (Text.trimSpace oldName) (Text.trimSpace newName) with
            ⟨err, herr⟩ | ⟨gs, hgs, hcase⟩
          · exact ⟨s.groups, .inl rfl, .inl (by rw [replaceGroupValue, herr]; rfl)⟩
          · refine ⟨gs, ?_, replaceGroupValue_result hold (if_neg (not_or.mpr ⟨hold, hnew⟩)) (fun _ => rfl) hgs⟩
            rcases hcase with ⟨hempty, -⟩ | ⟨-, hrename, hboth, rfl⟩
            · exact absurd hempty hnew
            · by_cases hin : Text.trimSpace oldName ∈ s.groups
              · exact .inr ⟨hold, hnew, hne, hin, fun hnewin => hboth ⟨hin, hnewin⟩, hrename⟩
              · refine .inl ((map_congr_left fun g hg => ?_).trans (map_id s.groups))
                rw [if_neg fun heq : g = Text.trimSpace oldName => hin (heq ▸ hg)]
                rfl
  | deleteGroup name =>
    rw [perform, deleteGroup]
    split
    · exact ⟨s.groups, .inl rfl, .inl rfl⟩
    case isFalse hname =>
      rcases moveGroup_cases f s (Text.trimSpace name) "" with ⟨err, herr⟩ | ⟨gs, hgs, hcase⟩
      · exact ⟨s.groups, .inl rfl, .inl (by rw [replaceGroupValue, herr]; rfl)⟩
      · refine ⟨gs, ?_, replaceGroupValue_result hname (if_neg hname) (fun _ => rfl) hgs⟩
        rcases hcase with ⟨-, hdelete, rfl⟩ | ⟨hempty, -⟩
        · by_cases hin : Text.trimSpace name ∈ s.groups
          · exact .inr ⟨hname, hin, hdelete⟩
          · exact .inl (filter_eq_self.mpr fun g hg => decide_eq_true fun heq => hin (heq ▸ hg))
        · exact absurd rfl hempty

theorem renamed_rows {n : Nat} (h : (renameGroup f s oldName newName).2 = .ok n) :
    (renameGroup f s oldName newName).1.groups =
      s.groups.map fun g => if g = Text.trimSpace oldName then Text.trimSpace newName else g := by
  rw [renameGroup] at h ⊢
  split at h
  · cases h
  case isFalse hold =>
    rw [if_neg hold]
    split at h
    · cases h
    case isFalse hnew =>
      rw [if_neg hnew]
      split at h
      case isTrue heq =>
        rw [if_pos heq, heq]
        refine ((map_congr_left fun g _ => ?_).trans (map_id s.groups)).symm
        split
        case isTrue hg => exact hg.symm
        case isFalse => rfl
      case isFalse hne =>
        rw [if_neg hne]
        rcases moveGroup_cases f s (Text.trimSpace oldName) (Text.trimSpace newName) with
          ⟨err, herr⟩ | ⟨gs, hgs, hcase⟩
        · rw [replaceGroupValue, herr] at h
          cases h
        · have hgroups : (replaceGroupValue f s (Text.trimSpace oldName) (Text.trimSpace newName)).1.groups = gs := by
            have htarget : target (.renameGroup oldName newName) = some (Text.trimSpace newName) :=
              if_neg (not_or.mpr ⟨hold, hnew⟩)
            rcases replaceGroupValue_result hold htarget (fun _ => rfl) hgs with hsame | ⟨-, e, -, -, hmoved⟩
            · rw [hsame]
            · exact hmoved.groups
          rw [hgroups]
          rcases hcase with ⟨hempty, -⟩ | ⟨-, -, -, rfl⟩
          · exact absurd hempty hnew
          · rfl

end agreement

section success

variable {e : Edit} {s s' : State} {f : Faults} {ids seen : List Int} {bs : List (List String)} {call : Call}
  {emails : List String} {group oldName newName : String} {n : Nat}

variable (hsteps : ∀ st, f st = false)

include hsteps

theorem findByEmails_succeeds (s : State) (n : Nat) (bs : List (List String)) :
    ∃ records, findByEmails f s n bs = .ok records := by
  induction bs generalizing n with
  | nil => exact ⟨[], rfl⟩
  | cons batch bs ih =>
    obtain ⟨records, hrecords⟩ := ih (n + 1)
    rw [findByEmails, hsteps, if_neg Bool.false_ne_true, hrecords]
    exact ⟨_, rfl⟩

theorem updateByEmails_succeeds (group : String) (n : Nat) (bs : List (List String))
    (s : State) : ∃ s', updateByEmails f group n bs s = .ok s' := by
  induction bs generalizing n s with
  | nil => exact ⟨s, rfl⟩
  | cons batch bs ih =>
    rw [updateByEmails, hsteps, if_neg Bool.false_ne_true]
    exact ih (n + 1) _

theorem pluckInbounds_succeeds (s : State) (n : Nat) (bs : List (List String))
    (seen : List Int) : ∃ ids, pluckInbounds f s n bs seen = .ok ids := by
  induction bs generalizing n seen with
  | nil => exact ⟨seen, rfl⟩
  | cons batch bs ih =>
    rw [pluckInbounds, hsteps, if_neg Bool.false_ne_true]
    exact ih (n + 1) _

theorem rewriteInbound_succeeds (e : Edit) {id : Int}
    (hfind : s.inbounds.find id ≠ none) : ∃ s', rewriteInbound f e s id = .ok s' ∧
      ∀ other, s.inbounds.find other ≠ none → s'.inbounds.find other ≠ none := by
  rw [rewriteInbound, hsteps, hsteps, if_neg Bool.false_ne_true]
  obtain ⟨ib, hib⟩ := Option.ne_none_iff_exists'.mp hfind
  rw [hib]
  dsimp only
  cases rewritten e ib.settings with
  | none => exact ⟨s, rfl, fun _ h => h⟩
  | some settings =>
    refine ⟨save s id settings, rfl, fun other hother => ?_⟩
    rw [save, Table.find_modify]
    exact fun hnone => hother (Option.map_eq_none_iff.mp hnone)

theorem rewriteAll_succeeds (e : Edit) (hfind : ∀ id ∈ ids, s.inbounds.find id ≠ none) :
    ∃ s', ids.foldlM (rewriteInbound f e) s = .ok s' := by
  induction ids generalizing s with
  | nil => exact ⟨s, rfl⟩
  | cons id ids ih =>
    obtain ⟨mid, hmid, hkept⟩ := rewriteInbound_succeeds hsteps e (hfind id mem_cons_self)
    obtain ⟨s', hs'⟩ := ih fun other hother => hkept other (hfind other (mem_cons_of_mem id hother))
    exact ⟨s', by rw [foldlM_cons, hmid]; exact hs'⟩

theorem rewriteAttached_succeeds (e : Edit)
    (hfind : ∀ r ∈ s.records, r.email ∈ emails → ∀ id, (r.id, id) ∈ s.links → s.inbounds.find id ≠ none) :
    ∃ s', rewriteAttached f e emails s = .ok s' := by
  obtain ⟨ids, hids⟩ := pluckInbounds_succeeds hsteps s 0 (batches emails) []
  obtain ⟨-, hmem⟩ := pluckInbounds_ok nodup_nil hids
  obtain ⟨s', hs'⟩ := @rewriteAll_succeeds s f ids hsteps e fun id hid => by
    rcases (hmem id).mp hid with hnil | ⟨batch, hbatch, hattached⟩
    · cases hnil
    · obtain ⟨r, hr, hemail, hlink⟩ := mem_attachedTo.mp hattached
      exact hfind r hr ((mem_batches emails r.email).mp ⟨batch, hbatch, hemail⟩) id hlink
  exact ⟨s', by rw [rewriteAttached, hids]; exact hs'⟩

theorem addTx_succeeds (group : String)
    (hfind : ∀ r ∈ s.records, r.email ∈ emails → ∀ id, (r.id, id) ∈ s.links → s.inbounds.find id ≠ none) :
    ∃ s', addTx f s emails group = .ok s' := by
  obtain ⟨mid, hmid⟩ := updateByEmails_succeeds hsteps group 0 (batches emails) s
  obtain rfl := updateByEmails_ok hmid
  obtain ⟨s', hs'⟩ := @rewriteAttached_succeeds
    { s with records := s.records.map (regrouped (fun r => (batches emails).any (·.contains r.email)) group) }
    f emails hsteps (byEmail emails group) fun r hr hemail => by
      obtain ⟨r0, hr0, rfl⟩ := mem_map.mp hr
      rw [regrouped_email] at hemail
      rw [regrouped_id]
      exact hfind r0 hr0 hemail
  exact ⟨s', by rw [addTx, hmid]; exact hs'⟩

theorem replaceTx_succeeds (oldName newName : String)
    (hfind : ∀ r ∈ s.records, r.email ∈ emails → ∀ id, (r.id, id) ∈ s.links → s.inbounds.find id ≠ none) :
    ∃ s', replaceTx f s emails oldName newName = .ok s' := by
  rw [replaceTx, hsteps, if_neg Bool.false_ne_true]
  refine rewriteAttached_succeeds hsteps _ fun r hr hemail => ?_
  obtain ⟨r0, hr0, rfl⟩ := mem_map.mp hr
  have hsame : (if r0.group = oldName then { r0 with group := newName } else r0).email = r0.email ∧
      (if r0.group = oldName then { r0 with group := newName } else r0).id = r0.id := by
    split <;> exact ⟨rfl, rfl⟩
  rw [hsame.1] at hemail
  rw [hsame.2]
  exact hfind r0 hr0 hemail

theorem ensureGroup_succeeds (s : State) (group : String) :
    ∃ gs, ensureGroup f s group = ({ s with groups := gs }, .ok ()) := by
  rw [ensureGroup, hsteps, hsteps, hsteps]
  split
  · exact ⟨s.groups, rfl⟩
  rw [if_neg Bool.false_ne_true]
  split
  · exact ⟨s.groups, rfl⟩
  rw [if_neg Bool.false_ne_true]
  split
  · exact ⟨s.groups, rfl⟩
  exact ⟨s.groups ++ [group], rfl⟩

theorem transaction_succeeds {body : Except Err State} (hbody : body = .ok s') :
    transaction f s body = (s', .ok ()) := by
  rw [hbody, transaction, hsteps]
  rfl

theorem addToGroup_succeeds (group : String) (hfind : ∀ r ∈ s.records,
    r.email ∈ emails → ∀ id, (r.id, id) ∈ s.links → s.inbounds.find id ≠ none) :
    ∃ n, (addToGroup f s emails group).2 = .ok n := by
  rw [addToGroup]
  split
  · exact ⟨0, rfl⟩
  obtain ⟨gs, hgs⟩ := ensureGroup_succeeds hsteps s (Text.trimSpace group)
  obtain ⟨records, hrecords⟩ := findByEmails_succeeds hsteps { s with groups := gs } 0 (batches emails)
  rw [hgs, andThen, hrecords]
  dsimp only
  split
  · exact ⟨0, rfl⟩
  obtain ⟨s', hs'⟩ := @addTx_succeeds { s with groups := gs } f (records.map (·.email)) hsteps
    (Text.trimSpace group) fun r hr hemail => hfind r hr (by
      obtain ⟨r', hr', heq⟩ := mem_map.mp hemail
      rw [← heq, ← mem_batches emails]
      exact ((mem_findByEmails hrecords r').mp hr').2)
  rw [transaction_succeeds hsteps hs']
  exact ⟨_, rfl⟩

theorem replaceGroupValue_succeeds (hmove : newName = "" ∨ newName ∉ s.groups)
    (hfind : ∀ r ∈ s.records, (∃ r' ∈ s.records, r'.group = oldName ∧ r'.email = r.email) →
      ∀ id, (r.id, id) ∈ s.links → s.inbounds.find id ≠ none) :
    ∃ n, (replaceGroupValue f s oldName newName).2 = .ok n := by
  have hmoved : ∃ gs, moveGroup f s oldName newName = ({ s with groups := gs }, .ok ()) := by
    rw [moveGroup, hsteps, hsteps]
    split
    · exact ⟨_, rfl⟩
    case isFalse hempty =>
      have hnew : newName ∉ s.groups := hmove.resolve_left hempty
      rw [if_neg Bool.false_ne_true, if_neg fun h => hnew (contains_iff_mem.mp (Bool.and_eq_true_iff.mp h).2)]
      exact ⟨_, rfl⟩
  obtain ⟨gs, hgs⟩ := hmoved
  rw [replaceGroupValue, hgs, andThen, hsteps, if_neg Bool.false_ne_true]
  dsimp only
  split
  · exact ⟨0, rfl⟩
  obtain ⟨s', hs'⟩ := @replaceTx_succeeds { s with groups := gs } f
    ((s.records.filter (·.group = oldName)).map (·.email)) hsteps oldName newName fun r hr hemail => by
      obtain ⟨r', hr', heq⟩ := mem_map.mp hemail
      obtain ⟨hin, hgroup⟩ := mem_filter.mp hr'
      exact hfind r hr ⟨r', hin, of_decide_eq_true hgroup, heq⟩
  rw [transaction_succeeds hsteps hs']
  exact ⟨_, rfl⟩

omit hsteps

theorem perform_succeeds (htouches : Touches f s call) (hsmooth : Smooth f s call) :
    ∃ n, (perform f s call).2 = .ok n := by
  have hsteps := hsmooth.steps
  cases call with
  | addToGroup emails group =>
    exact addToGroup_succeeds hsteps group fun r hr hemail =>
      hsmooth.found r hr ⟨r, hr, contains_iff_mem.mpr hemail, rfl⟩
  | removeFromGroup emails => exact absurd htouches id
  | renameGroup oldName newName =>
    obtain ⟨hold, hnew, hne, hin, hnotin, -⟩ := htouches
    rw [perform, renameGroup, if_neg hold, if_neg hnew, if_neg hne]
    exact replaceGroupValue_succeeds hsteps (.inr hnotin) fun r hr ⟨r', hr', hgroup, hemail⟩ =>
      hsmooth.found r hr ⟨r', hr', beq_iff_eq.mpr hgroup, hemail⟩
  | deleteGroup name =>
    obtain ⟨hname, -⟩ := htouches
    rw [perform, deleteGroup, if_neg hname]
    exact replaceGroupValue_succeeds hsteps (.inl rfl) fun r hr ⟨r', hr', hgroup, hemail⟩ =>
      hsmooth.found r hr ⟨r', hr', beq_iff_eq.mpr hgroup, hemail⟩

end success

section runs

variable {s : State} {f : Faults} {call : Call} {oldName newName : String}

theorem perform_refused (hfair : Fair f s call) {err : Err} (h : (perform f s call).2 = .error err) :
    (perform f s call).1 = s := by
  obtain ⟨gs, hwritten, hresult⟩ := perform_performed f s call
  rcases hwritten with rfl | htouches
  · rcases hresult with hsame | ⟨⟨n, hok⟩, -⟩
    · exact hsame
    · rw [hok] at h
      cases h
  · obtain ⟨n, hok⟩ := perform_succeeds htouches (hfair.smooth htouches)
    rw [hok] at h
    cases h

theorem perform_unmerged (hfair : Fair f s (.renameGroup oldName newName)) {n : Nat}
    (h : (renameGroup f s oldName newName).2 = .ok n) (hne : Text.trimSpace oldName ≠ Text.trimSpace newName)
    (hold : Used s (Text.trimSpace oldName)) : ¬Used s (Text.trimSpace newName) := by
  intro hnew
  rw [renameGroup] at h
  split at h
  · cases h
  split at h
  · cases h
  case isFalse hempty =>
    rcases moveGroup_cases f s (Text.trimSpace oldName) (Text.trimSpace newName) with ⟨err, herr⟩ | ⟨gs, hgs, hcase⟩
    · rw [replaceGroupValue, herr] at h
      cases h
    · rcases hcase with ⟨hnone, -⟩ | ⟨-, hrename, hboth, -⟩
      · exact hempty hnone
      · rcases hfair.apart oldName newName rfl hne hold hnew hempty with hfault | hin
        · rw [hrename] at hfault
          cases hfault
        · exact hboth hin

theorem perform_held (hagree : Agree s) (hfair : Fair f s call) :
    Held s call (perform f s call).1 (perform f s call).2 := by
  obtain ⟨gs, -, hresult⟩ := perform_performed f s call
  constructor
  case refused => exact fun err h => perform_refused hfair h
  case rows =>
    rintro oldName newName n rfl h
    rw [perform] at h ⊢
    exact renamed_rows h
  case unmerged =>
    rintro oldName newName n rfl h hne hold
    exact perform_unmerged hfair h hne hold
  case agree =>
    rcases hresult with hsame | ⟨-, e, htarget, hmatches, hmoved⟩
    · rw [hsame]
      exact hagree
    · exact @agree_of_moved e _ { s with groups := gs } _ hagree hmoved (hmatches hagree) fun r hr hp hne id cm hcm
        hemail => hfair.attached e.group htarget r hr hp hne id cm hcm hemail
  case kept =>
    intro r hr hp
    rcases hresult with hsame | ⟨-, e, htarget, hmatches, hmoved⟩
    · rw [hsame]
      exact ⟨hr, fun _ => rfl⟩
    · exact @kept_of_moved e _ { s with groups := gs } _ hmoved (hmatches hagree) r hr hp

theorem groups_in_agreement (calls : List (Faults × Call)) (hagree : Agree s) (hfair : FairRun s calls) :
    Agree (run s calls) ∧ ∀ before f call rest, calls = before ++ (f, call) :: rest →
      Held (run s before) call (perform f (run s before) call).1 (perform f (run s before) call).2 := by
  induction calls generalizing s with
  | nil =>
    refine ⟨hagree, fun before f call rest h => absurd h.symm ?_⟩
    exact append_ne_nil_of_right_ne_nil _ (cons_ne_nil _ _)
  | cons step calls ih =>
    obtain ⟨f, call⟩ := step
    obtain ⟨hfirst, hrest⟩ := hfair
    have hheld := perform_held hagree hfirst
    obtain ⟨hend, hall⟩ := ih hheld.agree hrest
    refine ⟨hend, fun before f' call' rest h => ?_⟩
    cases before with
    | nil =>
      obtain ⟨hstep, rfl⟩ := List.cons.inj h
      obtain ⟨rfl, rfl⟩ := Prod.mk.inj hstep
      exact hheld
    | cons first before =>
      obtain ⟨rfl, htail⟩ := List.cons.inj h
      exact hall before f' call' rest htail

theorem mem_entriesAt {id : Int} {cm : Json} :
    cm ∈ entriesAt s id ↔ ∃ ib ∈ s.inbounds.rows, ib.id = id ∧ cm ∈ entries ib := by
  rw [entriesAt]
  constructor
  · intro h
    cases hfind : s.inbounds.find id with
    | none =>
      rw [hfind] at h
      cases h
    | some ib =>
      rw [hfind] at h
      exact ⟨ib, (Table.mem_of_find hfind).1, (Table.mem_of_find hfind).2, h⟩
  · rintro ⟨ib, hib, rfl, hcm⟩
    rw [Table.find_of_mem hib]
    exact hcm

def noFaults : Faults := fun _ => false

def sampleEntry : Json := .obj [("email", .str "x"), ("group", .str "a")]

def sampleState : State :=
  { groups := ["a"], records := [⟨1, "x", "a"⟩, ⟨2, "y", "b"⟩], links := [(1, 1)]
    inbounds := Table.empty.put ⟨1, some (.obj [("clients", .arr [sampleEntry])])⟩ }

theorem sample_agree : Agree sampleState := by
  have hall : ∀ r ∈ sampleState.records, ∀ ib ∈ sampleState.inbounds.rows, ∀ cm ∈ entries ib,
      entryEmail cm = r.email → entryGroup cm = r.group := by decide
  intro r hr id cm hcm
  obtain ⟨ib, hib, -, hin⟩ := mem_entriesAt.mp hcm
  exact hall r hr ib hib cm hin

theorem groups_in_agreement_renamed : Agree (run sampleState [(noFaults, .renameGroup "a" "c")]) ∧
    ∀ before f call rest, [(noFaults, Call.renameGroup "a" "c")] = before ++ (f, call) :: rest →
      Held (run sampleState before) call (perform f (run sampleState before) call).1
        (perform f (run sampleState before) call).2 := by
  refine groups_in_agreement _ sample_agree ⟨⟨?_, fun _ => ⟨fun _ => rfl, ?_⟩, ?_⟩, trivial⟩
  · have hlinked : ∀ r ∈ sampleState.records, ∀ ib ∈ sampleState.inbounds.rows, ∀ cm ∈ entries ib,
        entryEmail cm = r.email → (r.id, ib.id) ∈ sampleState.links := by decide
    intro group _ r hr _ _ id cm hcm hemail
    obtain ⟨ib, hib, rfl, hin⟩ := mem_entriesAt.mp hcm
    exact hlinked r hr ib hib cm hin hemail
  · have hfound : ∀ l ∈ sampleState.links, sampleState.inbounds.find l.2 ≠ none := by decide
    exact fun r _ _ id hlink => hfound (r.id, id) hlink
  · rintro oldName newName h - - hused
    obtain ⟨rfl, rfl⟩ := Call.renameGroup.inj h
    have hfree : "c" ∉ sampleState.groups ∧ ∀ r ∈ sampleState.records, r.group ≠ "c" := by decide
    have hname : Text.trimSpace "c" = "c" := by decide
    rw [hname] at hused
    rcases hused with hin | ⟨r, hr, hgroup⟩
    · exact absurd hin hfree.1
    · exact absurd hgroup (hfree.2 r hr)

theorem merged_and_left_behind : Agree sampleState ∧
    ¬Held sampleState (.renameGroup "a" "b") (perform noFaults sampleState (.renameGroup "a" "b")).1
      (perform noFaults sampleState (.renameGroup "a" "b")).2 ∧
    ¬Held sampleState (.addToGroup ["x"] "c") (perform (· == .commit) sampleState (.addToGroup ["x"] "c")).1
      (perform (· == .commit) sampleState (.addToGroup ["x"] "c")).2 := by
  refine ⟨sample_agree, fun h => ?_, fun h => ?_⟩
  · refine h.unmerged "a" "b" 1 rfl (by decide) (by decide) (.inl (by decide)) (.inr ⟨⟨2, "y", "b"⟩, ?_, by decide⟩)
    decide
  · have hgroups := congrArg State.groups (h.refused .database (by decide))
    revert hgroups
    decide

end runs

end Groups

end QuiPanel
