import Otap.Flr.Lifecycle

/-!
# Only the current token verifies

The stored token hash is the hash of a string that leaves out the nonce and rounds the wavelength, and the
signature check knows nothing of renewals. Together they let through only the token of the last allocation
or renewal: what verifies was signed in the run, a signed token agrees with its active lease on everything
but the end, and the string then differs from the current one in the end only.

`Registry.History` is the invariant that relates the signed tokens, the returned tokens and the active
leases; `Registry.History.step` shows it over `Registry.Moved`. `only_current_token` combines it with the
assumptions on the libraries, each about the values of the run only.
-/

namespace Otap.Flr

open Otap.Lib

variable {P : Platform} {token : LeaseToken}

/-- The tokens returned for a lease, the latest first. -/
def Registry.issuedFor (r : Registry P) (leaseID : Bytes) : List LeaseToken :=
  r.issued.filter fun token => token.leaseID == leaseID

/-- The lease with another end. -/
def Lease.until (l : Lease) (endTime : Time) : Lease :=
  { l with endTime }

/-- The call draws a UUID that was not drawn before. -/
def Registry.Fresh (r : Registry P) (i : Input) : Prop :=
  ∀ uuid ∈ i.draws, uuid ∉ r.drawn

instance (r : Registry P) (i : Input) : Decidable (r.Fresh i) :=
  inferInstanceAs (Decidable (∀ uuid ∈ _, _))

/-! ## The history of a run -/

/-- The signed messages are those of the signed tokens and messages of other kinds. -/
def CryptoEngine.Logged (e : CryptoEngine P) : Prop :=
  ∀ m ∈ e.signed, Foreign P.enc m ∨ ∃ token ∈ e.tokens, token.message P.enc = some m

lemma CryptoEngine.Logged.signs {e e' : CryptoEngine P} (logged : e.Logged)
    (signs : e.Signs token e') : e'.Logged := by
  obtain ⟨m, message, rfl⟩ := signs
  intro m' mem
  cases mem with
  | head => exact .inr ⟨token.unsigned, List.mem_cons_self, message⟩
  | tail _ mem =>
    cases logged m' mem with
    | inl foreign => exact .inl foreign
    | inr found =>
      obtain ⟨token', mem', message'⟩ := found
      exact .inr ⟨token', List.mem_cons_of_mem _ mem', message'⟩

lemma CryptoEngine.Logged.signsOther {e e' : CryptoEngine P} (logged : e.Logged)
    (other : e.SignsOther e') : e'.Logged := by
  cases other with
  | inl same => exact same ▸ logged
  | inr other =>
    obtain ⟨m, foreign, rfl⟩ := other
    intro m' mem
    cases mem with
    | head => exact .inl foreign
    | tail _ mem => exact logged m' mem

lemma CryptoEngine.SignsOther.tokens {e e' : CryptoEngine P} (other : e.SignsOther e') :
    e'.tokens = e.tokens ∧ e'.operatorID = e.operatorID := by
  cases other with
  | inl same => exact same ▸ ⟨rfl, rfl⟩
  | inr other =>
    obtain ⟨m, _, rfl⟩ := other
    exact ⟨rfl, rfl⟩

/-- The token of an active lease, and the tokens it has replaced. -/
structure Registry.Current (r : Registry P) (id : Bytes) (l : Lease) (token : LeaseToken)
    (replaced : List LeaseToken) : Prop where
  issued : r.issuedFor id = token :: replaced
  grants : token.Grants r.engine.crypto.operatorID l
  tokenHash : l.tokenHash = (hashToken P token).getD []
  later : ∀ old ∈ replaced, old.endTime < token.endTime

/-- What a run has signed and returned, and its active leases. -/
structure Registry.History (r : Registry P) : Prop where
  wf : r.Wf
  wavelength : ∀ {id l}, r.engine.store.Active id l → ∃ w, l.wavelength = some w
  drawn : ∀ {id l}, r.engine.store.Active id l → id ∈ r.drawn
  logged : r.engine.crypto.Logged
  tokensDrawn : ∀ token ∈ r.engine.crypto.tokens, token.leaseID ∈ r.drawn
  grants : ∀ token ∈ r.engine.crypto.tokens, ∀ l, r.engine.store.Active token.leaseID l →
    token.Grants r.engine.crypto.operatorID (l.until token.endTime)
  issued : ∀ token ∈ r.issued, token.unsigned ∈ r.engine.crypto.tokens
  current : ∀ {id l}, r.engine.store.Active id l → ∃ token replaced, r.Current id l token replaced

lemma Registry.History.start (key : P.ecdsa.PrivateKey) (operatorID : Bytes) (clock : Time) :
    (Registry.start P key operatorID clock).History where
  wf := .start ..
  wavelength h := by cases h.1
  drawn h := by cases h.1
  logged _ mem := by cases mem
  tokensDrawn _ mem := by cases mem
  grants _ mem := by cases mem
  issued _ mem := by cases mem
  current h := by cases h.1

/-- No token was returned for an ID that was not drawn. -/
lemma Registry.History.issuedFor_undrawn {r : Registry P} (hist : r.History) {id : Bytes}
    (undrawn : id ∉ r.drawn) : r.issuedFor id = [] := by
  refine List.filter_eq_nil_iff.mpr fun token mem eq => undrawn ?_
  have drawn := hist.tokensDrawn token.unsigned (hist.issued token mem)
  rw [← eq_of_beq eq]
  exact drawn

section Step

variable {r : Registry P} {i : Input} {clock : Time} {crypto : CryptoEngine P} {drawn : List Bytes}

/-- Fewer active leases, and no token signed. -/
lemma Registry.History.shrink (hist : r.History) {engine : Engine P}
    (wf : (Registry.mk engine clock r.issued (drawn ++ r.drawn)).Wf)
    (active : ∀ {id l}, engine.store.Active id l → r.engine.store.Active id l)
    (other : r.engine.crypto.SignsOther engine.crypto) :
    (Registry.mk engine clock r.issued (drawn ++ r.drawn)).History := by
  obtain ⟨tokens, operator⟩ := other.tokens
  exact
    { wf
      wavelength := fun h => hist.wavelength (active h)
      drawn := fun h => List.mem_append_right _ (hist.drawn (active h))
      logged := hist.logged.signsOther other
      tokensDrawn := fun token mem =>
        List.mem_append_right _ (hist.tokensDrawn token (tokens ▸ mem))
      grants := fun token mem l h => by
        rw [operator]
        exact hist.grants token (tokens ▸ mem) l (active h)
      issued := fun token mem => by
        rw [tokens]
        exact hist.issued token mem
      current := fun h => by
        obtain ⟨token, replaced, c⟩ := hist.current (active h)
        exact ⟨token, replaced, c.issued, operator ▸ c.grants, c.tokenHash, c.later⟩ }

/-- A token was signed that no call returned; it agrees with the active lease of its ID, if any. -/
lemma Registry.History.signOnly (hist : r.History)
    (wf : (Registry.mk { r.engine with crypto } clock r.issued (drawn ++ r.drawn)).Wf)
    (signs : r.engine.crypto.Signs token crypto) (mem : token.leaseID ∈ drawn ++ r.drawn)
    (grants : ∀ l, r.engine.store.Active token.leaseID l →
      token.Grants r.engine.crypto.operatorID (l.until token.endTime)) :
    (Registry.mk { r.engine with crypto } clock r.issued (drawn ++ r.drawn)).History := by
  have logged := hist.logged.signs signs
  obtain ⟨m, message, rfl⟩ := signs
  exact
    { wf
      wavelength := hist.wavelength
      drawn := fun h => List.mem_append_right _ (hist.drawn h)
      logged
      tokensDrawn := fun token' mem' => by
        cases mem' with
        | head => exact mem
        | tail _ mem' => exact List.mem_append_right _ (hist.tokensDrawn token' mem')
      grants := fun token' mem' l h => by
        cases mem' with
        | head => exact { grants l h with }
        | tail _ mem' => exact hist.grants token' mem' l h
      issued := fun token' mem' => List.mem_cons_of_mem _ (hist.issued token' mem')
      current := fun h => by
        obtain ⟨token', replaced, c⟩ := hist.current h
        exact ⟨token', replaced, c.issued, c.grants, c.tokenHash, c.later⟩ }

/-- A lease was set together with its token: what holds for the other leases still holds. -/
lemma Registry.History.setLease (hist : r.History) {lease : Lease}
    (wf : (Registry.mk { r.engine with crypto, store := r.engine.store.setLease lease } clock
      (token :: r.issued) (drawn ++ r.drawn)).Wf)
    (signs : r.engine.crypto.Signs token crypto) (mem : lease.id ∈ drawn ++ r.drawn)
    (wavelength : ∃ w, lease.wavelength = some w)
    (tokenHash : lease.tokenHash = (hashToken P token).getD [])
    (grants : token.Grants r.engine.crypto.operatorID lease)
    (before : ∀ token' ∈ r.engine.crypto.tokens, token'.leaseID = lease.id →
      token'.Grants r.engine.crypto.operatorID (lease.until token'.endTime))
    (later : ∀ old ∈ r.issuedFor lease.id, old.endTime < token.endTime) :
    (Registry.mk { r.engine with crypto, store := r.engine.store.setLease lease } clock
      (token :: r.issued) (drawn ++ r.drawn)).History := by
  have logged := hist.logged.signs signs
  obtain ⟨m, message, rfl⟩ := signs
  exact
    { wf
      wavelength := fun h => by
        cases h.of_setLease with
        | inl eq => exact eq.2 ▸ wavelength
        | inr active => exact hist.wavelength active.2
      drawn := fun h => by
        cases h.of_setLease with
        | inl eq => exact eq.1 ▸ mem
        | inr active => exact List.mem_append_right _ (hist.drawn active.2)
      logged
      tokensDrawn := fun token' mem' => by
        cases mem' with
        | head => exact (grants.leaseID.trans rfl) ▸ mem
        | tail _ mem' => exact List.mem_append_right _ (hist.tokensDrawn token' mem')
      grants := fun token' mem' l h => by
        cases mem' with
        | head =>
          cases h.of_setLease with
          | inl eq =>
            obtain ⟨_, rfl⟩ := eq
            exact { grants with endTime := rfl }
          | inr active => exact absurd grants.leaseID active.1
        | tail _ mem' =>
          cases h.of_setLease with
          | inl eq =>
            obtain ⟨id, rfl⟩ := eq
            exact before token' mem' id
          | inr active => exact hist.grants token' mem' l active.2
      issued := fun token' mem' => by
        cases mem' with
        | head => exact List.mem_cons_self
        | tail _ mem' => exact List.mem_cons_of_mem _ (hist.issued token' mem')
      current := fun {id l} h => by
        cases h.of_setLease with
        | inl eq =>
          obtain ⟨rfl, rfl⟩ := eq
          refine ⟨token, r.issuedFor l.id, ?_, grants, tokenHash, later⟩
          exact List.filter_cons_of_pos (beq_iff_eq.mpr grants.leaseID)
        | inr active =>
          obtain ⟨token', replaced, c⟩ := hist.current active.2
          have ne : ¬ (token.leaseID == id) = true := fun eq =>
            active.1 ((eq_of_beq eq).symm.trans grants.leaseID)
          refine ⟨token', replaced, ?_, c.grants, c.tokenHash, c.later⟩
          exact (List.filter_cons_of_neg (p := fun t : LeaseToken => t.leaseID == id) ne).trans
            c.issued }

/-- A renewal ends later than every token that was returned for the lease. -/
lemma Registry.History.ends_later (hist : r.History) {leaseID : Bytes} {extension : Int} {old : Lease}
    (regranted : r.engine.Regranted leaseID extension old token crypto) :
    ∀ earlier ∈ r.issuedFor old.id, earlier.endTime < token.endTime := by
  intro earlier mem
  obtain ⟨latest, replaced, c⟩ := hist.current regranted.active
  rw [hist.wf.keyed regranted.active, c.issued] at mem
  have before : latest.endTime < token.endTime := by
    rw [c.grants.endTime, regranted.grants.endTime]
    exact Int.lt_add_of_pos_right _ regranted.positive
  cases mem with
  | head => exact before
  | tail _ mem => exact (c.later earlier mem).trans before

lemma Registry.History.step (hist : r.History) (fresh : r.Fresh i) : (r.step i).History := by
  have moved := r.run_moved i
  have wf := hist.wf.step i
  unfold Registry.step at wf ⊢
  generalize r.run i = result at moved wf ⊢
  obtain ⟨returned, engine⟩ := result
  cases moved with
  | @allocated w _ _ lease token _ call allocated =>
    have draws : i.draws = [i.uuid] := by rw [Input.draws, call]
    have undrawn : lease.id ∉ r.drawn := by
      rw [allocated.id]
      exact fresh _ (draws ▸ List.mem_singleton_self _)
    obtain ⟨crypto, signs, rfl⟩ := allocated.engine
    refine hist.setLease wf signs ?_ ⟨w, allocated.wavelength⟩ allocated.tokenHash allocated.grants
      ?_ ?_
    · rw [draws, allocated.id]
      exact List.mem_cons_self
    · intro token' mem id
      exact absurd (id ▸ hist.tokensDrawn token' mem) undrawn
    · intro old mem
      rw [hist.issuedFor_undrawn undrawn] at mem
      cases mem
  | notStored call id signs =>
    have draws : i.draws = [i.uuid] := by rw [Input.draws, call]
    refine hist.signOnly wf signs ?_ ?_
    · rw [draws, id]
      exact List.mem_cons_self
    · intro l active
      exact absurd (id ▸ hist.drawn active) (fresh _ (draws ▸ List.mem_singleton_self _))
  | @renewed leaseID extension old token crypto call regranted =>
    have id : old.id = leaseID := hist.wf.keyed regranted.active
    have wavelength := hist.wavelength regranted.active
    have later := hist.ends_later regranted
    refine hist.setLease wf regranted.signs ?_ wavelength rfl { regranted.grants with } ?_ later
    · exact List.mem_append_right _ (id ▸ hist.drawn regranted.active)
    · intro token' mem id'
      have active := regranted.active
      rw [← id] at active
      exact { hist.grants token' mem old (id' ▸ active) with }
  | notRenewed regranted =>
    have g := regranted.grants
    have id := hist.wf.keyed regranted.active
    have leaseID := g.leaseID.trans id
    refine hist.signOnly wf regranted.signs ?_ ?_
    · rw [leaseID]
      exact List.mem_append_right _ (hist.drawn regranted.active)
    · intro l active
      rw [leaseID] at active
      obtain rfl := regranted.active.unique active
      exact { g with endTime := rfl }
  | retired retires => exact hist.shrink wf retires.active (.inl rfl)
  | other leases _ other => exact hist.shrink wf (fun h => ⟨leases ▸ h.1, h.2⟩) other

end Step

/-! ## Assumptions on the libraries -/

/-- The signature of the token verifies only if its digest was signed in the run. -/
def Registry.Unforged (r : Registry P) (token : LeaseToken) : Prop :=
  ∀ m ∈ token.message P.enc, ∀ sig ∈ unmarshalSignature token.signature,
    P.ecdsa.verify (P.ecdsa.publicKey r.engine.crypto.privateKey) (P.sha3.sum m) sig.1 sig.2 = true →
    P.sha3.sum m ∈ r.engine.crypto.signed.map P.sha3.sum

/-- The byte strings hashed in the run and in the verification of the token. -/
def Registry.hashed (r : Registry P) (token : LeaseToken) : List Bytes :=
  r.engine.crypto.signed ++ (token.message P.enc).toList ++
    (token :: r.issued).filterMap fun t => t.wavelength.map (tokenString P.enc t)

/-- The hash does not collide on them. -/
def Registry.CollisionFree (r : Registry P) (token : LeaseToken) : Prop :=
  ∀ a ∈ r.hashed token, ∀ b ∈ r.hashed token, P.sha3.sum a = P.sha3.sum b → a = b

/-- The JSON of the token is the one of no other token signed in the run. -/
def Registry.JsonInjective (r : Registry P) (token : LeaseToken) : Prop :=
  ∀ t ∈ r.engine.crypto.tokens, t.message P.enc = token.message P.enc →
    t.canonical P.enc = token.canonical P.enc

/-- The times in the token and in the tokens signed in the run have different timestamps. -/
def Registry.TimesInjective (r : Registry P) (token : LeaseToken) : Prop :=
  ∀ t ∈ token :: r.engine.crypto.tokens, ∀ t' ∈ token :: r.engine.crypto.tokens,
    (P.enc.rfc3339Nano t.startTime = P.enc.rfc3339Nano t'.startTime → t.startTime = t'.startTime) ∧
    (P.enc.rfc3339Nano t.endTime = P.enc.rfc3339Nano t'.endTime → t.endTime = t'.endTime)

/-! ## Verification -/

/-- The tokens agree on everything but nonce, signature and time of issue. -/
structure LeaseToken.Agrees (a b : LeaseToken) : Prop where
  version : a.version = b.version
  leaseID : a.leaseID = b.leaseID
  operatorID : a.operatorID = b.operatorID
  wavelength : a.wavelength = b.wavelength
  endpointID : a.endpointID = b.endpointID
  startTime : a.startTime = b.startTime
  endTime : a.endTime = b.endTime

/-- A token signed in the run: the signature check and the JSON give one that `token` agrees with. -/
lemma Registry.History.signedToken {r : Registry P} (hist : r.History)
    (unforged : r.Unforged token) (collisionFree : r.CollisionFree token)
    (json : r.JsonInjective token) (times : r.TimesInjective token) {m : Bytes} {sig : Nat × Nat}
    (message : token.message P.enc = some m) (format : unmarshalSignature token.signature = some sig)
    (verified : P.ecdsa.verify (P.ecdsa.publicKey r.engine.crypto.privateKey) (P.sha3.sum m)
      sig.1 sig.2 = true) :
    ∃ signed ∈ r.engine.crypto.tokens, token.Agrees signed := by
  obtain ⟨m', mem, digest⟩ := List.mem_map.mp (unforged m message sig format verified)
  have eq : m' = m := collisionFree m' (by simp [hashed, mem]) m (by simp [hashed, message]) digest
  cases hist.logged m' mem with
  | inl foreign => exact absurd (eq ▸ message) (foreign token)
  | inr found =>
    obtain ⟨signed, signedMem, signedMessage⟩ := found
    have canonical := json signed signedMem (by rw [signedMessage, message, eq])
    obtain ⟨start, stop⟩ := times token List.mem_cons_self signed (List.mem_cons_of_mem _ signedMem)
    unfold LeaseToken.canonical at canonical
    injection canonical with version leaseID operatorID wavelength endpointID startTime endTime _
    exact ⟨signed, signedMem, version.symm, leaseID.symm, operatorID.symm, wavelength.symm,
      endpointID.symm, start startTime.symm, stop endTime.symm⟩

/-- Two tokens with one string that agree on all but the end have one timestamp of the end. -/
lemma tokenString_endTime {enc : Encoding} {a b : LeaseToken} {w : Wavelength}
    (leaseID : a.leaseID = b.leaseID) (operatorID : a.operatorID = b.operatorID)
    (endpointID : a.endpointID = b.endpointID) (version : a.version = b.version)
    (startTime : a.startTime = b.startTime) (h : tokenString enc a w = tokenString enc b w) :
    enc.rfc3339Nano a.endTime = enc.rfc3339Nano b.endTime := by
  unfold tokenString at h
  rw [leaseID, operatorID, endpointID, version, startTime] at h
  exact List.append_cancel_left h

lemma Registry.History.agrees_current {r : Registry P} (hist : r.History)
    (collisionFree : r.CollisionFree token) (times : r.TimesInjective token)
    {signed : LeaseToken} (mem : signed ∈ r.engine.crypto.tokens) (agrees : token.Agrees signed)
    {l : Lease} (active : r.engine.store.Active token.leaseID l) {w : Wavelength}
    (wavelength : token.wavelength = some w) (hash : P.sha3.sum (tokenString P.enc token w) = l.tokenHash)
    {current : LeaseToken} {replaced : List LeaseToken}
    (c : r.Current token.leaseID l current replaced) : token.Agrees current := by
  have g := hist.grants signed mem l (agrees.leaseID ▸ active)
  have g' := c.grants
  have version := agrees.version.trans (g.version.trans g'.version.symm)
  have leaseID := agrees.leaseID.trans (g.leaseID.trans g'.leaseID.symm)
  have operatorID := agrees.operatorID.trans (g.operatorID.trans g'.operatorID.symm)
  have wavelength' := agrees.wavelength.trans (g.wavelength.trans g'.wavelength.symm)
  have endpointID := agrees.endpointID.trans (g.endpointID.trans g'.endpointID.symm)
  have startTime := agrees.startTime.trans (g.startTime.trans g'.startTime.symm)
  have currentWavelength : current.wavelength = some w := wavelength'.symm.trans wavelength
  have issued : current ∈ r.issued := by
    have head : current ∈ r.issuedFor token.leaseID := c.issued ▸ List.mem_cons_self
    exact (List.mem_filter.mp head).1
  have digest : P.sha3.sum (tokenString P.enc token w)
      = P.sha3.sum (tokenString P.enc current w) := by
    rw [hash, c.tokenHash, hashToken, currentWavelength, Option.map_some, Option.getD_some]
  have string : tokenString P.enc token w = tokenString P.enc current w := by
    refine collisionFree _ ?_ _ ?_ digest
    · exact List.mem_append_right _ (List.mem_filterMap.mpr
        ⟨token, List.mem_cons_self, by rw [wavelength, Option.map_some]⟩)
    · exact List.mem_append_right _ (List.mem_filterMap.mpr
        ⟨current, List.mem_cons_of_mem _ issued, by rw [currentWavelength, Option.map_some]⟩)
  have stamp := tokenString_endTime leaseID operatorID endpointID version startTime string
  have endTime := (times token List.mem_cons_self current.unsigned
    (List.mem_cons_of_mem _ (hist.issued current issued))).2 stamp
  exact ⟨version, leaseID, operatorID, wavelength', endpointID, startTime, endTime⟩

/-- Only the current token verifies: in every run in which no UUID is drawn twice, a token that
    `VerifyLease` accepts belongs to an active lease that has not ended, agrees with the token last
    returned for the lease, and ends later than every token returned for it before. -/
theorem only_current_token {key : P.ecdsa.PrivateKey} {operatorID : Bytes} {clock : Time}
    {inputs : List Input} {r : Registry P} {t : Time} {token : LeaseToken}
    (run : Along Registry.Fresh Registry.step (.start P key operatorID clock) inputs)
    (reached : inputs.foldl Registry.step (.start P key operatorID clock) = r)
    (unforged : r.Unforged token) (collisionFree : r.CollisionFree token)
    (json : r.JsonInjective token) (times : r.TimesInjective token) (accepted : r.Accepts t token) :
    ∃ l current, r.engine.store.Active token.leaseID l ∧ t ≤ l.endTime ∧
      r.latestToken token.leaseID = some current ∧ token.Agrees current ∧
      ∀ old ∈ (r.issuedFor token.leaseID).tail, old.endTime < token.endTime := by
  have hist : r.History := by
    rw [← reached]
    exact Along.inv (P := fun r : Registry P => r.History) (.start ..)
      (fun _ _ hist fresh => hist.step fresh) run
  obtain ⟨l, m, sig, w, active, notAfter, message, format, verified, wavelength, hash⟩ :=
    accepted.checked
  obtain ⟨signed, mem, agrees⟩ :=
    hist.signedToken unforged collisionFree json times message format verified
  obtain ⟨current, replaced, c⟩ := hist.current active
  have agrees' := hist.agrees_current collisionFree times mem agrees active wavelength hash c
  refine ⟨l, current, active, notAfter, ?_, agrees', ?_⟩
  · rw [Registry.latestToken, ← List.head?_filter, ← Registry.issuedFor, c.issued, List.head?_cons]
  · rw [c.issued, agrees'.endTime]
    exact c.later

/-- The wavelength is allocated for 10 ns, and the lease renewed 5 ns later. -/
def allocatedAndRenewed : List Input :=
  [ plainInput 0 (ascii "a") (.allocateLease (some channel33) (ascii "ep") 10),
    plainInput 5 [] (.renewLease (ascii "a") 10) ]

/-- The state after that run. -/
def renewedRegistry : Registry .plain :=
  allocatedAndRenewed.foldl Registry.step (.start .plain () (ascii "op") 0)

/-- The token that the renewal returned. -/
def renewedToken : LeaseToken :=
  (renewedRegistry.latestToken (ascii "a")).get (by decide +kernel)

/-- The renewed token verifies, and the token of the allocation ends before it. -/
theorem only_current_token_renewed :
    (renewedRegistry.issuedFor (ascii "a")).length = 2 ∧
    ∃ l current, renewedRegistry.engine.store.Active renewedToken.leaseID l ∧ 12 ≤ l.endTime ∧
      renewedRegistry.latestToken renewedToken.leaseID = some current ∧
      renewedToken.Agrees current ∧
      ∀ old ∈ (renewedRegistry.issuedFor renewedToken.leaseID).tail,
        old.endTime < renewedToken.endTime :=
  ⟨by decide +kernel,
    only_current_token (by decide +kernel) rfl
      (by unfold Registry.Unforged; decide +kernel)
      (by unfold Registry.CollisionFree; decide +kernel)
      (by unfold Registry.JsonInjective; decide +kernel)
      (by unfold Registry.TimesInjective; decide +kernel) (by decide +kernel)⟩

end Otap.Flr
