import QuiPanel.Posting

namespace QuiPanel

open ReadCommitted

namespace WalletService

def payee (buyerId managerId : Int) : Option Int :=
  if managerId ≠ 0 ∧ managerId ≠ buyerId then some managerId else none

def saleLegs (buyer : User) (managerId : Int) (amount : Int64) (desc : String) (note : TxMeta) :
    List Leg :=
  ⟨buyer.id, -amount, .debit, desc, note⟩ ::
    ((payee buyer.id managerId).map fun m =>
      ⟨m, amount, .credit, desc, ⟨.sale, note.refId, buyer.username⟩⟩).toList

def refundLegs (buyerId managerId : Int) (amount : Int64) (desc : String) (note : TxMeta) :
    List Leg :=
  ⟨buyerId, amount, .credit, desc, note⟩ ::
    ((payee buyerId managerId).map fun m =>
      ⟨m, -amount, .debit, desc, ⟨.refund, note.refId, note.actor⟩⟩).toList

variable {amount : Int64} {desc : String} {note : TxMeta}

theorem mem_saleLegs {buyer : User} {managerId : Int}
    {leg : Leg} (h : leg ∈ saleLegs buyer managerId amount desc note) :
    leg = ⟨buyer.id, -amount, .debit, desc, note⟩ ∨ ∃ m, payee buyer.id managerId = some m ∧
      leg = ⟨m, amount, .credit, desc, ⟨.sale, note.refId, buyer.username⟩⟩ := by
  cases hp : payee buyer.id managerId <;> simpa [saleLegs, hp] using h

theorem mem_refundLegs {buyerId managerId : Int}
    {leg : Leg} (h : leg ∈ refundLegs buyerId managerId amount desc note) :
    leg = ⟨buyerId, amount, .credit, desc, note⟩ ∨ ∃ m, payee buyerId managerId = some m ∧
      leg = ⟨m, -amount, .debit, desc, ⟨.refund, note.refId, note.actor⟩⟩ := by
  cases hp : payee buyerId managerId <;> simpa [refundLegs, hp] using h

variable {R : Rely panel} {G : Pending panel → Prop}

theorem posting_one {leg : Leg} {p p' : Pending panel} (hfree : p.held (.user leg.user) = none)
    (h : Posted leg p p') : Posting [leg] p p' :=
  .cons hfree h .nil

theorem inside_one (hR : Funded R) (leg : Leg) :
    Call.Inside (S := panel) R (applyDelta leg.user leg.delta leg.type leg.desc leg.note) .empty
      (Posts [leg] fun p _ => Posting [leg] .empty p) := by
  have hsame : ∀ l ∈ [leg], l.user = leg.user → l = leg := by
    intro l hl _
    exact List.mem_singleton.mp hl
  refine Call.inside_mono (inside_applyDelta hR (List.mem_singleton.mpr rfl) hsame) ?_
  rintro p tr (e | a) h
  · exact h
  · exact ⟨posting_one rfl h.1, h.2⟩

theorem inside_two (hR : Funded R) {leg leg' : Leg} (hne : leg'.user ≠ leg.user) :
    Call.Inside (S := panel) R (do
      let _ ← applyDelta leg.user leg.delta leg.type leg.desc leg.note
      let _ ← applyDelta leg'.user leg'.delta leg'.type leg'.desc leg'.note
      pure ()) .empty (Posts [leg, leg'] fun p _ => Posting [leg, leg'] .empty p) := by
  have hmem : ∀ l ∈ [leg, leg'], l = leg ∨ l = leg' := by simp
  refine posts_bind (Q := fun p _ => Posted leg .empty p) (inside_applyDelta hR (by simp) ?_) ?_
  · intro l hl he
    rcases hmem l hl with rfl | rfl
    · rfl
    · exact absurd he hne
  · intro p _ h
    have hfree : p.held (.user leg'.user) = none := by
      obtain ⟨u, v, -, -, -, rfl⟩ := h
      exact Pending.put_held_of_ne (S := panel) .empty _ _ (by simpa using hne)
    refine posts_bind (Q := fun p' _ => Posted leg' p p') (inside_applyDelta hR (by simp) ?_) ?_
    · intro l hl he
      rcases hmem l hl with rfl | rfl
      · exact absurd he.symm hne
      · rfl
    · intro p' _ h'
      exact posts_pure (.cons rfl h (posting_one hfree h'))

theorem outside_creditWithMeta (hR : Funded R) {id : Int}
    (hG : 0 < amount → ∀ p, Posting [⟨id, amount, .credit, desc, note⟩] .empty p → G p) :
    Call.Outside (S := panel) R G (creditWithMeta id amount desc note) fun tr r =>
      if amount ≤ 0 then tr = [] ∧ r = .error .invalidAmount
      else Settles [⟨id, amount, .credit, desc, note⟩] (fun p _ =>
        Posting [⟨id, amount, .credit, desc, note⟩] .empty p) tr r := by
  unfold creditWithMeta
  by_cases h : amount ≤ 0
  · simp only [h, if_true]
    exact Call.outside_throw ⟨rfl, rfl⟩
  · simp only [h, if_false]
    exact outside_withRetry _ (inside_one hR ⟨id, amount, .credit, desc, note⟩)
      (fun p _ => hG (Int64.not_le.mp h) p)

theorem outside_debitWithMeta (hR : Funded R) {id : Int}
    (hG : 0 < amount → ∀ p, Posting [⟨id, -amount, .debit, desc, note⟩] .empty p → G p) :
    Call.Outside (S := panel) R G (debitWithMeta id amount desc note) fun tr r =>
      if amount ≤ 0 then tr = [] ∧ r = .error .invalidAmount
      else Settles [⟨id, -amount, .debit, desc, note⟩] (fun p _ =>
        Posting [⟨id, -amount, .debit, desc, note⟩] .empty p) tr r := by
  unfold debitWithMeta
  by_cases h : amount ≤ 0
  · simp only [h, if_true]
    exact Call.outside_throw ⟨rfl, rfl⟩
  · simp only [h, if_false]
    exact outside_withRetry _ (inside_one hR ⟨id, -amount, .debit, desc, note⟩)
      (fun p _ => hG (Int64.not_le.mp h) p)

def managerOf : Event panel → Option Int
  | .read (.tenant _) v => some ((v : Option Tenant).elim 0 Tenant.managerUserId)
  | .fault (.read (.tenant _)) => some 0
  | _ => none

def resolved (seller : Int) (tr : Trace) : Int :=
  if seller ≤ globalTenantId then 0 else (tr.findSome? managerOf).getD 0

theorem idle_single {ev : Event panel} (hf : faulty ev = false) (hl : lost ev = false)
    (hb : ∀ leg : Leg, leg.blocks ev = false) : Idle [ev] := by
  intro e he
  obtain rfl := List.mem_singleton.mp he
  exact ⟨hf, hl, hb⟩

structure Looked (seller : Int) (tr : Trace) (m : Int) : Prop where
  quiet : Call.Quiet tr
  idle : Idle tr
  found : ∀ rest, resolved seller (tr ++ rest) = m

theorem looked_nil {seller : Int} (h : seller ≤ globalTenantId) : Looked seller [] 0 :=
  ⟨Call.quiet_nil, by simp [Idle], fun _ => if_pos h⟩

theorem outside_managerUserID (tenantId : Int) :
    Call.Outside (S := panel) R G (managerUserID tenantId)
      fun tr r => ∃ m, r = .ok m ∧ Looked tenantId tr m := by
  unfold managerUserID
  split
  case isTrue h => exact Call.outside_pure ⟨0, rfl, looked_nil h⟩
  case isFalse h =>
    have hlook : ∀ ev m, managerOf ev = some m → Call.Quiet [ev] → Idle [ev] →
        Looked tenantId [ev] m := by
      intro ev m he hq hi
      exact ⟨hq, hi, fun rest => by simp [resolved, h, he]⟩
    refine Call.outside_bind (Call.outside_result (S := panel) (Q := fun tr r => ∃ v : Option Tenant,
      (tr = [.read (Key.tenant tenantId) v] ∧ r = .ok (.ok v)) ∨
        (tr = [.fault (.read (Key.tenant tenantId))] ∧ r = .ok (.error .database)))
      (Call.outside_read (fun v _ => ⟨v, .inl ⟨rfl, rfl⟩⟩) ⟨none, .inr ⟨rfl, rfl⟩⟩)) ?_ ?_
    · rintro tr b ⟨v, ⟨rfl, h⟩ | ⟨rfl, h⟩⟩
      · obtain rfl := Except.ok.inj h
        have hv := hlook (.read (Key.tenant tenantId) v) (v.elim 0 Tenant.managerUserId) rfl
          (Call.quiet_single (by simp)) (idle_single rfl rfl fun _ => rfl)
        cases v with
        | none => exact Call.outside_pure ⟨0, rfl, hv⟩
        | some t => exact Call.outside_pure ⟨_, rfl, hv⟩
      · obtain rfl := Except.ok.inj h
        exact Call.outside_pure ⟨0, rfl, hlook _ 0 rfl (Call.quiet_single (by simp))
          (idle_single rfl rfl fun _ => rfl)⟩
    · rintro tr e ⟨v, ⟨-, h⟩ | ⟨-, h⟩⟩ <;> cases h

theorem outside_sellerManager (seller : Int) :
    Call.Outside (S := panel) R G (sellerManager seller)
      fun tr r => ∃ m, r = .ok m ∧ Looked seller tr m := by
  unfold sellerManager
  split
  case isTrue => exact outside_managerUserID seller
  case isFalse h => exact Call.outside_pure ⟨0, rfl, looked_nil (Int.not_lt.mp h)⟩

def Looks {α : Type} (seller : Int) (legs : Int → List Leg) (Q : Int → Pending panel → α → Prop) (tr : Trace)
    (r : Except Err α) : Prop :=
  ∃ look m tr', tr = look ++ tr' ∧ Looked seller look m ∧ Settles (legs m) (Q m) tr' r

theorem outside_debitWorkspacePurchase (hR : Funded R) {buyer : User} {seller : Int}
    (hG : 0 < amount → ∀ m p, Posting (saleLegs buyer m amount desc note) .empty p → G p) :
    Call.Outside (S := panel) R G (debitWorkspacePurchase buyer seller amount desc note) fun tr r =>
      if amount ≤ 0 then tr = [] ∧ r = .error .invalidAmount
      else Looks seller (saleLegs buyer · amount desc note) (fun m p t =>
        t = (if seller > globalTenantId then seller else 0) ∧
          Posting (saleLegs buyer m amount desc note) .empty p) tr r := by
  unfold debitWorkspacePurchase
  by_cases h : amount ≤ 0
  · simp only [h, if_true]
    exact Call.outside_throw ⟨rfl, rfl⟩
  · simp only [h, if_false]
    refine Call.outside_bind (outside_sellerManager seller) ?_ ?_
    · rintro look m ⟨_, ⟨⟩, hlook⟩
      refine Call.outside_bind (outside_withRetry (saleLegs buyer m amount desc note)
        (Q := fun p _ => Posting (saleLegs buyer m amount desc note) .empty p) ?_
        (fun p _ => hG (Int64.not_le.mp h) m p)) ?_ ?_
      · by_cases hm : m ≠ 0 ∧ m ≠ buyer.id
        · simp only [saleLegs, payee, hm, ne_eq, not_false_eq_true, and_self, if_true,
            Option.map_some, Option.toList_some]
          exact inside_two hR hm.2
        · simp only [saleLegs, payee, hm, if_false, Option.map_none, Option.toList_none]
          exact posts_bind (inside_one hR _) (fun p _ h => posts_pure h)
      · rintro tr _ ⟨tr', p, rfl, hq, hc, hp⟩
        exact Call.outside_pure ⟨look, m, _, rfl, hlook, tr', p, by simp, hq, hc, rfl, hp⟩
      · intro tr e hs
        exact ⟨look, m, tr, rfl, hlook, hs⟩
    · rintro tr e ⟨m, he, -⟩
      cases he

theorem outside_refundWorkspacePurchase (hR : Funded R) {buyerId seller : Int}
    (hG : 0 < amount → ∀ m p, Posting (refundLegs buyerId m amount desc note) .empty p → G p) :
    Call.Outside (S := panel) R G (refundWorkspacePurchase buyerId seller amount desc note)
      fun tr r =>
        if amount ≤ 0 then tr = [] ∧ r = .ok ()
        else Looks seller (refundLegs buyerId · amount desc note) (fun m p _ =>
          Posting (refundLegs buyerId m amount desc note) .empty p) tr r := by
  unfold refundWorkspacePurchase
  by_cases h : amount ≤ 0
  · simp only [h, if_true]
    exact Call.outside_pure ⟨rfl, rfl⟩
  · simp only [h, if_false]
    refine Call.outside_bind (outside_sellerManager seller) ?_ ?_
    · rintro look m ⟨_, ⟨⟩, hlook⟩
      refine Call.Outside.mono (outside_withRetry (refundLegs buyerId m amount desc note)
        (Q := fun p _ => Posting (refundLegs buyerId m amount desc note) .empty p) ?_
        (fun p _ => hG (Int64.not_le.mp h) m p)) ?_
      · by_cases hm : m ≠ 0 ∧ m ≠ buyerId
        · simp only [refundLegs, payee, hm, ne_eq, not_false_eq_true, and_self, if_true,
            Option.map_some, Option.toList_some]
          exact inside_two hR hm.2
        · simp only [refundLegs, payee, hm, if_false, Option.map_none, Option.toList_none]
          exact posts_bind (inside_one hR _) (fun p _ h => posts_pure h)
      · intro tr r hs
        exact ⟨look, m, tr, rfl, hlook, hs⟩
    · rintro tr e ⟨m, he, -⟩
      cases he

end WalletService

end QuiPanel
