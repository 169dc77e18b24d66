import Recto.Secrets.Manage

/-!
# The stores are one map

Over a plain map from tuples to values a read returns the last value that was
set and not deleted since. Each store does the same along the runs on which its
names tell the tuples apart, and the vault only where a read finds a value.
-/

namespace Recto
namespace Secrets

open Connections

/-! ## Runs -/

inductive Call where
  | setConnection (service key : String) (fields : ConnectionFields) (secret : Option String) (now : ℤ)
  | getConnectionSecret (service key : String)
  | deleteConnection (service key : String)
  | setUserEntry (platform subject key : String) (fields : EntryFields) (secret : Option String)
      (now : ℤ)
  | releaseUserSecret (platform subject key : String)
  | deleteUserEntry (platform subject key : String)

/-- A call that raises changes nothing. -/
def World.settle {σ : Type} (w : World σ) (r : Except Raised (Reply × World σ)) :
    Except Raised Reply × World σ :=
  match r with
  | .ok (reply, w') => (.ok reply, w')
  | .error e => (.error e, w)

def Call.perform {σ : Type} (b : Backend σ) (w : World σ) : Call → Except Raised Reply × World σ
  | setConnection service key fields secret now =>
      w.settle (Secrets.setConnection b service key fields secret now w)
  | getConnectionSecret service key => (Secrets.getConnectionSecret b service key w, w)
  | deleteConnection service key => w.settle (Secrets.deleteConnection b service key w)
  | setUserEntry platform subject key fields secret now =>
      w.settle (Secrets.setUserEntry b platform subject key fields secret now w)
  | releaseUserSecret platform subject key => (Secrets.releaseUserSecret b platform subject key w, w)
  | deleteUserEntry platform subject key => w.settle (Secrets.deleteUserEntry b platform subject key w)

/-- What the calls of a run answer. -/
def answers {σ : Type} (b : Backend σ) : World σ → List Call → List (Except Raised Reply)
  | _, [] => []
  | w, c :: cs => (c.perform b w).1 :: answers b (c.perform b w).2 cs

/-- Where a run leads. -/
def runCalls {σ : Type} (b : Backend σ) (w : World σ) (calls : List Call) : World σ :=
  calls.foldl (fun w c => (c.perform b w).2) w

def World.empty {σ : Type} [EmptyCollection σ] : World σ := ⟨⟨∅, ∅⟩, ∅⟩

/-! ## The plain map -/

abbrev Values := Dict SecretTuple String

def plain : Backend Values where
  fetch t values := .ok ((values.get? t).getD "")
  write t value _ values := .ok (values.set t value)
  delete t values := .ok (values.erase t)

/-- The value a call reads. -/
def Call.reads : Call → Option SecretTuple
  | getConnectionSecret service key => do
      let key ← readKey key
      pure { service, tier := .platform, key }
  | releaseUserSecret platform subject key => do
      let subject ← readSubject subject
      let key ← readKey key
      pure { service := platform, tier := .user subject, key }
  | _ => none

/-- The value a call sets, or deletes. -/
def Call.changes : Call → Option (SecretTuple × Option String)
  | setConnection service key _ secret _ => do
      guard (service ≠ "")
      let key ← readKey key
      let value ← nonEmpty secret
      pure ({ service, tier := .platform, key }, some value)
  | deleteConnection service key => do
      let key ← readKey key
      pure ({ service, tier := .platform, key }, none)
  | setUserEntry platform subject key _ secret _ => do
      guard (platform ≠ "")
      let subject ← readSubject subject
      let key ← readKey key
      let value ← nonEmpty secret
      pure ({ service := platform, tier := .user subject, key }, some value)
  | deleteUserEntry platform subject key => do
      let subject ← readSubject subject
      let key ← readKey key
      pure ({ service := platform, tier := .user subject, key }, none)
  | _ => none

/-- The last value set for a tuple since it was last deleted. -/
def lastValue (t : SecretTuple) (calls : List Call) : Option String :=
  calls.foldl (fun last c =>
    match c.changes with
    | some (t', value) => if t' = t then value else last
    | none => last) none

/-! ## What a store must do -/

/-- What a call asks of the store. -/
inductive StoreOp where
  | fetch (t : SecretTuple)
  | write (t : SecretTuple)
  | delete (t : SecretTuple)

/-- What a call asks of the store, where the rows are these; a call that fails a check before, or
deletes what has no row, asks nothing. -/
def Call.storeOp (rows : Rows) : Call → Option StoreOp
  | setConnection service key _ secret _ => do
      guard (service ≠ "")
      let key ← readKey key
      let _ ← nonEmpty secret
      pure (.write { service, tier := .platform, key })
  | getConnectionSecret service key => do
      let key ← readKey key
      pure (.fetch { service, tier := .platform, key })
  | deleteConnection service key => do
      let key ← readKey key
      let _ ← rows.connections.get? (service, key)
      pure (.delete { service, tier := .platform, key })
  | setUserEntry platform subject key _ secret _ => do
      guard (platform ≠ "")
      let subject ← readSubject subject
      let key ← readKey key
      let _ ← nonEmpty secret
      pure (.write { service := platform, tier := .user subject, key })
  | releaseUserSecret platform subject key => do
      let subject ← readSubject subject
      let key ← readKey key
      pure (.fetch { service := platform, tier := .user subject, key })
  | deleteUserEntry platform subject key => do
      let subject ← readSubject subject
      let key ← readKey key
      let _ ← rows.entries.get? (platform, subject, key)
      pure (.delete { service := platform, tier := .user subject, key })

/-- Every call of a run asks of the store what fits it, where the values are those of the plain
map. -/
def Along (Fits : Values → StoreOp → Prop) : World Values → List Call → Prop
  | _, [] => True
  | w, c :: cs =>
      (∀ op ∈ c.storeOp w.rows, Fits w.vault op) ∧ Along Fits (c.perform plain w).2 cs

/-- What fits the store, it does as the plain map does. -/
structure Implements {σ : Type} (b : Backend σ) (Keeps : σ → Values → Prop)
    (Fits : Values → StoreOp → Prop) : Prop where
  fetch : ∀ {s m t}, Keeps s m → Fits m (.fetch t) → b.fetch t s = .ok ((m.get? t).getD "")
  write : ∀ {s m t value} (now : ℤ), Keeps s m → value ≠ "" → Fits m (.write t) →
    ∃ s', b.write t value now s = .ok s' ∧ Keeps s' (m.set t value)
  delete : ∀ {s m t}, Keeps s m → Fits m (.delete t) →
    ∃ s', deleteValue b t s = .ok s' ∧ Keeps s' (m.erase t)

section
variable {σ : Type} {b : Backend σ} {Keeps : σ → Values → Prop} {Fits : Values → StoreOp → Prop}
  {w : World σ} {p : World Values} {secret : Option String}

theorem nonEmpty_ne {value : String} (h : nonEmpty secret = some value) : value ≠ "" := by
  simpa using (Option.filter_eq_some_iff.mp h).2

theorem writeValue_keeps (h : Implements b Keeps Fits) {vault : σ} {values : Values}
    (hkeeps : Keeps vault values) (t : SecretTuple) (secret : Option String) (now : ℤ)
    (hfits : ∀ value ∈ nonEmpty secret, Fits values (.write t)) :
    ∃ s m, writeValue b t secret now vault = .ok s ∧ writeValue plain t secret now values = .ok m ∧
      Keeps s m := by
  unfold writeValue
  cases hsecret : nonEmpty secret with
  | none => exact ⟨_, _, rfl, rfl, hkeeps⟩
  | some value =>
    obtain ⟨s, hwrite, hs⟩ := h.write now hkeeps (nonEmpty_ne hsecret) (hfits value hsecret)
    exact ⟨s, _, hwrite, rfl, hs⟩

/-- The two worlds have the same rows, and the store keeps the plain map's values. -/
def Alike (Keeps : σ → Values → Prop) (w : World σ) (p : World Values) : Prop :=
  w.rows = p.rows ∧ Keeps w.vault p.vault

/-- Both go through alike, or raise the same. -/
inductive SameOutcome (Keeps : σ → Values → Prop) :
    Except Raised (Reply × World σ) → Except Raised (Reply × World Values) → Prop
  | ok (reply : Reply) (w : World σ) (p : World Values) (h : Alike Keeps w p) :
      SameOutcome Keeps (.ok (reply, w)) (.ok (reply, p))
  | error (e : Raised) : SameOutcome Keeps (.error e) (.error e)

theorem SameOutcome.settle {r : Except Raised (Reply × World σ)}
    {r' : Except Raised (Reply × World Values)} (h : SameOutcome Keeps r r') (hw : Alike Keeps w p) :
    (w.settle r).1 = (p.settle r').1 ∧ Alike Keeps (w.settle r).2 (p.settle r').2 := by
  cases h with
  | ok reply w' p' h => exact ⟨rfl, h⟩
  | error e => exact ⟨rfl, hw⟩

/-- What is checked first is the same for both. -/
theorem SameOutcome.bind {α : Type} {x : Except Raised α} {f : α → Except Raised (Reply × World σ)}
    {g : α → Except Raised (Reply × World Values)}
    (h : ∀ a, x = .ok a → SameOutcome Keeps (f a) (g a)) : SameOutcome Keeps (x >>= f) (x >>= g) := by
  cases x with
  | error e => exact .error e
  | ok a => exact h a rfl

theorem bind_congr_ok {α β : Type} {x : Except Raised α} {f g : α → Except Raised β}
    (h : ∀ a, x = .ok a → f a = g a) : (x >>= f) = x >>= g := by
  cases x with
  | error e => rfl
  | ok a => exact h a rfl

theorem present_eq_ok {α : Type} {name : Option α} {a : α} : present name = .ok a ↔ name = some a := by
  cases name <;> simp [present]

theorem setConnection_same (h : Implements b Keeps Fits) (hw : Alike Keeps w p) (service key : String)
    (fields : ConnectionFields) (secret : Option String) (now : ℤ)
    (hfits : ∀ op ∈ (Call.setConnection service key fields secret now).storeOp p.rows,
      Fits p.vault op) :
    SameOutcome Keeps (setConnection b service key fields secret now w)
      (setConnection plain service key fields secret now p) := by
  obtain ⟨rows, vault⟩ := w
  obtain ⟨_, values⟩ := p
  obtain ⟨rfl, hkeeps⟩ := hw
  refine .bind fun _ hservice => .bind fun key' hkey => ?_
  rw [ensure_eq_ok] at hservice
  rw [present_eq_ok] at hkey
  obtain ⟨s, m, hs, hm, hkept⟩ := writeValue_keeps h hkeeps ⟨service, .platform, key'⟩ secret now
    fun value hvalue => hfits _ (by simp [Call.storeOp, hservice, hkey, Option.mem_def.mp hvalue])
  rw [hs, hm]
  exact .ok _ _ _ ⟨rfl, hkept⟩

theorem deleteConnection_same (h : Implements b Keeps Fits) (hw : Alike Keeps w p)
    (service key : String)
    (hfits : ∀ op ∈ (Call.deleteConnection service key).storeOp p.rows, Fits p.vault op) :
    SameOutcome Keeps (deleteConnection b service key w) (deleteConnection plain service key p) := by
  obtain ⟨rows, vault⟩ := w
  obtain ⟨_, values⟩ := p
  obtain ⟨rfl, hkeeps⟩ := hw
  refine .bind fun key' hkey => ?_
  rw [present_eq_ok] at hkey
  cases hrow : rows.connections.get? (service, key') with
  | none =>
    dsimp only
    exact .ok _ _ _ ⟨rfl, hkeeps⟩
  | some row =>
    obtain ⟨s, hs, hkept⟩ := h.delete hkeeps (hfits (.delete ⟨service, .platform, key'⟩) (by
      simp [Call.storeOp, hkey, hrow]))
    simp only [hs]
    exact .ok _ _ _ ⟨rfl, hkept⟩

theorem setUserEntry_same (h : Implements b Keeps Fits) (hw : Alike Keeps w p)
    (platform subject key : String) (fields : EntryFields) (secret : Option String) (now : ℤ)
    (hfits : ∀ op ∈ (Call.setUserEntry platform subject key fields secret now).storeOp p.rows,
      Fits p.vault op) :
    SameOutcome Keeps (setUserEntry b platform subject key fields secret now w)
      (setUserEntry plain platform subject key fields secret now p) := by
  obtain ⟨rows, vault⟩ := w
  obtain ⟨_, values⟩ := p
  obtain ⟨rfl, hkeeps⟩ := hw
  refine .bind fun _ hplatform => .bind fun subject' hsubject => .bind fun key' hkey => ?_
  rw [ensure_eq_ok] at hplatform
  rw [present_eq_ok] at hsubject hkey
  obtain ⟨s, m, hs, hm, hkept⟩ := writeValue_keeps h hkeeps ⟨platform, .user subject', key'⟩ secret
    now fun value hvalue => hfits _ (by
      simp [Call.storeOp, hplatform, hsubject, hkey, Option.mem_def.mp hvalue])
  rw [hs, hm]
  exact .ok _ _ _ ⟨rfl, hkept⟩

theorem deleteUserEntry_same (h : Implements b Keeps Fits) (hw : Alike Keeps w p)
    (platform subject key : String)
    (hfits : ∀ op ∈ (Call.deleteUserEntry platform subject key).storeOp p.rows, Fits p.vault op) :
    SameOutcome Keeps (deleteUserEntry b platform subject key w)
      (deleteUserEntry plain platform subject key p) := by
  obtain ⟨rows, vault⟩ := w
  obtain ⟨_, values⟩ := p
  obtain ⟨rfl, hkeeps⟩ := hw
  refine .bind fun subject' hsubject => .bind fun key' hkey => ?_
  rw [present_eq_ok] at hsubject hkey
  cases hrow : rows.entries.get? (platform, subject', key') with
  | none =>
    dsimp only
    exact .ok _ _ _ ⟨rfl, hkeeps⟩
  | some row =>
    obtain ⟨s, hs, hkept⟩ := h.delete hkeeps (hfits (.delete ⟨platform, .user subject', key'⟩) (by
      simp [Call.storeOp, hsubject, hkey, hrow]))
    simp only [hs]
    exact .ok _ _ _ ⟨rfl, hkept⟩

theorem readValue_eq (h : Implements b Keeps Fits) {vault : σ} {values : Values}
    (hkeeps : Keeps vault values) {t : SecretTuple} (hfits : Fits values (.fetch t)) :
    readValue b t vault = readValue plain t values := by
  rw [readValue, readValue, h.fetch hkeeps hfits]
  rfl

/-- One call answers the same, and leaves both alike. -/
theorem perform_same (h : Implements b Keeps Fits) (hw : Alike Keeps w p) (c : Call)
    (hfits : ∀ op ∈ c.storeOp p.rows, Fits p.vault op) :
    (c.perform b w).1 = (c.perform plain p).1 ∧ Alike Keeps (c.perform b w).2 (c.perform plain p).2 := by
  cases c with
  | setConnection service key fields secret now =>
    exact (setConnection_same h hw service key fields secret now hfits).settle hw
  | getConnectionSecret service key =>
    refine ⟨bind_congr_ok fun key' hkey => ?_, hw⟩
    rw [present_eq_ok] at hkey
    exact readValue_eq h hw.2 (hfits _ (by simp [Call.storeOp, hkey]))
  | deleteConnection service key =>
    have hsettled := (deleteConnection_same h hw service key hfits).settle hw
    exact hsettled
  | setUserEntry platform subject key fields secret now =>
    exact (setUserEntry_same h hw platform subject key fields secret now hfits).settle hw
  | releaseUserSecret platform subject key =>
    refine ⟨bind_congr_ok fun subject' hsubject => bind_congr_ok fun key' hkey => ?_, hw⟩
    rw [present_eq_ok] at hsubject hkey
    exact readValue_eq h hw.2 (hfits _ (by simp [Call.storeOp, hsubject, hkey]))
  | deleteUserEntry platform subject key =>
    exact (deleteUserEntry_same h hw platform subject key hfits).settle hw

theorem answers_eq (h : Implements b Keeps Fits) (hw : Alike Keeps w p) (calls : List Call)
    (hfits : Along Fits p calls) : answers b w calls = answers plain p calls := by
  induction calls generalizing w p with
  | nil => rfl
  | cons c cs ih =>
    obtain ⟨hanswer, hnext⟩ := perform_same h hw c hfits.1
    exact congrArg₂ List.cons hanswer (ih hnext hfits.2)

end

/-! ## The three stores -/

namespace StoreOp

/-- The tuple it is about. -/
def tuple : StoreOp → SecretTuple
  | fetch t => t
  | write t => t
  | delete t => t

end StoreOp

/-- The files hold each value's text under the path of its tuple. -/
def FileBacked.Keeps (files : Files) (values : Values) : Prop :=
  KeptUnder FileBacked.path (fun value raw => FileBacked.readPayload raw = .ok value) values files

/-- `_safe_component` admits the service. -/
def FileBacked.Fits (_ : Values) (op : StoreOp) : Prop := SafeComponent op.tuple.service

theorem ok_bind {α β : Type} (a : α) (f : α → Except Raised β) : (Except.ok a >>= f) = f a := rfl

theorem fileBacked_implements : Implements FileBacked.backend FileBacked.Keeps FileBacked.Fits := by
  have hown : ∀ (m : Values) t, OwnName FileBacked.path m t := fun m t t' _ hname =>
    FileBacked.path_injective hname
  refine ⟨?_, ?_, ?_⟩
  · intro files m t hkeeps hfits
    have hpath : FileBacked.pathFor t = .ok (FileBacked.path t) := FileBacked.pathFor_eq hfits
    simp only [FileBacked.backend, hpath, ok_bind]
    cases hget : m.get? t with
    | none =>
      rw [KeptUnder.get?_none hkeeps (hown m t) hget]
      rfl
    | some value =>
      obtain ⟨raw, hraw, hvalue⟩ := KeptUnder.written hkeeps t value hget
      rw [hraw]
      exact hvalue
  · intro files m t value now hkeeps _ hfits
    have hpath : FileBacked.pathFor t = .ok (FileBacked.path t) := FileBacked.pathFor_eq hfits
    simp only [FileBacked.backend, hpath, ok_bind]
    exact ⟨_, rfl, KeptUnder.set hkeeps (hown m t) (FileBacked.readPayload_payload value now)⟩
  · intro files m t hkeeps hfits
    have hpath : FileBacked.pathFor t = .ok (FileBacked.path t) := FileBacked.pathFor_eq hfits
    simp only [deleteValue, FileBacked.backend, hpath, ok_bind]
    exact ⟨_, rfl, KeptUnder.erase hkeeps (hown m t)⟩

/-- The files hold each value encrypted under the path of its tuple. -/
def DpapiMachine.Keeps (cipher : Cipher) (root : FilePath) (files : Files) (values : Values) : Prop :=
  KeptUnder (DpapiMachine.path root) (fun value raw => raw = cipher.encrypt value) values files

/-- `format_storage_path` admits the service, and no other tuple with a value has the same path. -/
def DpapiMachine.Fits (root : FilePath) (values : Values) (op : StoreOp) : Prop :=
  (op.tuple.service ≠ "" ∧ ':' ∉ chars op.tuple.service) ∧
    OwnName (DpapiMachine.path root) values op.tuple

theorem dpapiMachine_implements (cipher : Cipher) (root : FilePath) :
    Implements (DpapiMachine.backend cipher root) (DpapiMachine.Keeps cipher root)
      (DpapiMachine.Fits root) := by
  have hpath : ∀ {t : SecretTuple}, t.service ≠ "" ∧ ':' ∉ chars t.service →
      DpapiMachine.formatStoragePath root t = .ok (DpapiMachine.path root t) :=
    fun h => DpapiMachine.formatStoragePath_eq h.1 h.2
  refine ⟨?_, ?_, ?_⟩
  · intro files m t hkeeps hfits
    obtain ⟨hservice, hown⟩ := hfits
    simp only [DpapiMachine.backend, hpath (t := t) hservice, ok_bind]
    cases hget : m.get? t with
    | none =>
      change OwnName (DpapiMachine.path root) m t at hown
      rw [KeptUnder.get?_none hkeeps hown hget]
      rfl
    | some value =>
      obtain ⟨raw, hraw, rfl⟩ := KeptUnder.written hkeeps t value hget
      rw [hraw]
      exact cipher.inverse value
  · intro files m t value now hkeeps _ hfits
    obtain ⟨hservice, hown⟩ := hfits
    simp only [DpapiMachine.backend, hpath (t := t) hservice, ok_bind]
    exact ⟨_, rfl, KeptUnder.set hkeeps hown rfl⟩
  · intro files m t hkeeps hfits
    obtain ⟨hservice, hown⟩ := hfits
    simp only [deleteValue, DpapiMachine.backend, hpath (t := t) hservice, ok_bind]
    cases hget : m.get? t with
    | none =>
      change OwnName (DpapiMachine.path root) m t at hown
      rw [KeptUnder.get?_none hkeeps hown hget]
      exact ⟨_, rfl, KeptUnder.erase_absent hkeeps hget⟩
    | some value =>
      obtain ⟨raw, hraw, -⟩ := KeptUnder.written hkeeps t value hget
      rw [hraw]
      exact ⟨_, rfl, KeptUnder.erase hkeeps hown⟩

/-- The vault holds each value under the vault name of its tuple. -/
def AzureKeyVault.Keeps (vault : Dict String String) (values : Values) : Prop :=
  KeptUnder AzureKeyVault.kvName (fun value kept => kept = value) values vault

/-- `normalize_kv_name` admits the names; a read finds a value, and where a value is set or deleted
no other tuple with a value has the same vault name. -/
def AzureKeyVault.Fits (values : Values) (op : StoreOp) : Prop :=
  AzureKeyVault.Valid op.tuple ∧
    match op with
    | .fetch t => t ∈ values
    | .write t => OwnName AzureKeyVault.kvName values t
    | .delete t => OwnName AzureKeyVault.kvName values t

theorem azureKeyVault_implements :
    Implements AzureKeyVault.backend AzureKeyVault.Keeps AzureKeyVault.Fits := by
  have hname : ∀ {t}, AzureKeyVault.Valid t →
      AzureKeyVault.normalizeKvName t = .ok (AzureKeyVault.kvName t) := by
    intro t ht
    rw [AzureKeyVault.normalizeKvName, if_pos ht]
  refine ⟨?_, ?_, ?_⟩
  · intro vault m t hkeeps hfits
    obtain ⟨hvalid, hmem⟩ := hfits
    obtain ⟨value, hget⟩ := Dict.mem_iff.mp hmem
    obtain ⟨kept, hkept, rfl⟩ := KeptUnder.written hkeeps t value hget
    simp only [AzureKeyVault.backend, hname (t := t) hvalid, ok_bind, hkept, hget]
    rfl
  · intro vault m t value now hkeeps hvalue hfits
    obtain ⟨hvalid, hown⟩ := hfits
    simp only [AzureKeyVault.backend, hname (t := t) hvalid, ensure, if_pos hvalue, ok_bind]
    exact ⟨_, rfl, KeptUnder.set hkeeps hown rfl⟩
  · intro vault m t hkeeps hfits
    obtain ⟨hvalid, hown⟩ := hfits
    simp only [deleteValue, AzureKeyVault.backend, hname (t := t) hvalid, ok_bind]
    exact ⟨_, rfl, KeptUnder.erase hkeeps hown⟩

/-! ## What a read returns -/

/-- The tuple has its row in a sidecar. -/
def HasRow (rows : Rows) (t : SecretTuple) : Prop :=
  match t.tier with
  | .platform => (t.service, t.key) ∈ rows.connections
  | .user subject => (t.service, subject, t.key) ∈ rows.entries

/-- What a call does on the plain map: nothing, a value set, a value deleted with its row, or a
delete where there is no row. -/
inductive Moves : World Values → World Values → Option (SecretTuple × Option String) → Prop
  | keep {w w'} (hvault : w'.vault = w.vault) (hrows : ∀ t, HasRow w.rows t → HasRow w'.rows t) :
      Moves w w' none
  | set {w w'} (t : SecretTuple) (value : String) (hvalue : value ≠ "")
      (hvault : w'.vault = w.vault.set t value) (hrow : HasRow w'.rows t)
      (hrows : ∀ t', HasRow w.rows t' → HasRow w'.rows t') : Moves w w' (some (t, some value))
  | erase {w w'} (t : SecretTuple) (hvault : w'.vault = w.vault.erase t)
      (hrows : ∀ t', t' ≠ t → HasRow w.rows t' → HasRow w'.rows t') : Moves w w' (some (t, none))
  | absent {w} (t : SecretTuple) (hrow : ¬ HasRow w.rows t) : Moves w w (some (t, none))

theorem hasRow_set_connections (rows : Rows) (service : String) (key : Key) (row : ConnectionMeta) :
    HasRow ⟨rows.connections.set (service, key) row, rows.entries⟩ ⟨service, .platform, key⟩ ∧
      ∀ t, HasRow rows t →
        HasRow ⟨rows.connections.set (service, key) row, rows.entries⟩ t := by
  refine ⟨Dict.mem_set.mpr (.inl rfl), ?_⟩
  rintro ⟨service', _ | subject, key'⟩ h
  · exact Dict.mem_set.mpr (.inr h)
  · exact h

theorem hasRow_set_entries (rows : Rows) (platform : String) (subject : Subject) (key : Key)
    (row : UserVaultEntryMeta) :
    HasRow ⟨rows.connections, rows.entries.set (platform, subject, key) row⟩
        ⟨platform, .user subject, key⟩ ∧
      ∀ t, HasRow rows t →
        HasRow ⟨rows.connections, rows.entries.set (platform, subject, key) row⟩ t := by
  refine ⟨Dict.mem_set.mpr (.inl rfl), ?_⟩
  rintro ⟨service', _ | subject', key'⟩ h
  · exact h
  · exact Dict.mem_set.mpr (.inr h)

theorem hasRow_erase_connections (rows : Rows) (service : String) (key : Key) :
    ∀ t, t ≠ ⟨service, .platform, key⟩ → HasRow rows t →
      HasRow ⟨rows.connections.erase (service, key), rows.entries⟩ t := by
  rintro ⟨service', _ | subject, key'⟩ hne h
  · refine Dict.mem_erase.mpr ⟨fun heq => hne ?_, h⟩
    obtain ⟨rfl, rfl⟩ := Prod.mk.inj heq
    rfl
  · exact h

theorem hasRow_erase_entries (rows : Rows) (platform : String) (subject : Subject) (key : Key) :
    ∀ t, t ≠ ⟨platform, .user subject, key⟩ → HasRow rows t →
      HasRow ⟨rows.connections, rows.entries.erase (platform, subject, key)⟩ t := by
  rintro ⟨service', _ | subject', key'⟩ hne h
  · exact h
  · refine Dict.mem_erase.mpr ⟨fun heq => hne ?_, h⟩
    simp only [Prod.mk.injEq] at heq
    obtain ⟨rfl, rfl, rfl⟩ := heq
    rfl

theorem Moves.refl (w : World Values) : Moves w w none := .keep rfl fun _ h => h

theorem setConnection_moves (w : World Values) (service key : String) (fields : ConnectionFields)
    (secret : Option String) (now : ℤ) :
    Moves w (w.settle (setConnection plain service key fields secret now w)).2
      (Call.setConnection service key fields secret now).changes := by
  by_cases hservice : service = ""
  · simp only [setConnection, ensure, hservice, ne_eq, not_true_eq_false, if_false, Call.changes]
    exact .refl w
  cases hkey : readKey key with
  | none =>
    simp only [setConnection, ensure, ne_eq, hservice, not_false_eq_true, if_true, ok_bind, hkey, present,
      Call.changes]
    exact .refl w
  | some key' =>
    simp only [setConnection, ensure, ne_eq, hservice, not_false_eq_true, if_true, ok_bind, hkey, present,
      Call.changes, writeValue]
    obtain ⟨hrow, hrows⟩ := hasRow_set_connections w.rows service key'
      (connectionRow service key' fields (nonEmpty secret).isSome now
        (w.rows.connections.get? (service, key')))
    cases hsecret : nonEmpty secret with
    | none =>
      rw [hsecret] at hrow hrows
      exact .keep rfl hrows
    | some value =>
      rw [hsecret] at hrow hrows
      exact .set _ value (nonEmpty_ne hsecret) rfl hrow hrows

theorem deleteConnection_moves (w : World Values) (service key : String) :
    Moves w (w.settle (deleteConnection plain service key w)).2
      (Call.deleteConnection service key).changes := by
  cases hkey : readKey key with
  | none =>
    simp only [deleteConnection, hkey, present, Call.changes]
    exact .refl w
  | some key' =>
    simp only [deleteConnection, ok_bind, hkey, present, Call.changes]
    cases hrow : w.rows.connections.get? (service, key') with
    | none => exact .absent ⟨service, .platform, key'⟩ (Dict.get?_eq_none_iff.mp hrow)
    | some row =>
      exact .erase ⟨service, .platform, key'⟩ rfl (hasRow_erase_connections w.rows service key')

theorem setUserEntry_moves (w : World Values) (platform subject key : String) (fields : EntryFields)
    (secret : Option String) (now : ℤ) :
    Moves w (w.settle (setUserEntry plain platform subject key fields secret now w)).2
      (Call.setUserEntry platform subject key fields secret now).changes := by
  by_cases hplatform : platform = ""
  · simp only [setUserEntry, ensure, hplatform, ne_eq, not_true_eq_false, if_false, Call.changes]
    exact .refl w
  cases hsubject : readSubject subject with
  | none =>
    simp only [setUserEntry, ensure, ne_eq, hplatform, not_false_eq_true, if_true, ok_bind, hsubject,
      present, Call.changes]
    exact .refl w
  | some subject' =>
    cases hkey : readKey key with
    | none =>
      simp only [setUserEntry, ensure, ne_eq, hplatform, not_false_eq_true, if_true, ok_bind, hsubject,
        hkey, present, Call.changes]
      exact .refl w
    | some key' =>
      simp only [setUserEntry, ensure, ne_eq, hplatform, not_false_eq_true, if_true, ok_bind, hsubject,
        hkey, present, Call.changes, writeValue]
      obtain ⟨hrow, hrows⟩ := hasRow_set_entries w.rows platform subject' key'
        (entryRow platform subject' key' fields (nonEmpty secret).isSome now
          (w.rows.entries.get? (platform, subject', key')))
      cases hsecret : nonEmpty secret with
      | none =>
        rw [hsecret] at hrow hrows
        exact .keep rfl hrows
      | some value =>
        rw [hsecret] at hrow hrows
        exact .set _ value (nonEmpty_ne hsecret) rfl hrow hrows

theorem deleteUserEntry_moves (w : World Values) (platform subject key : String) :
    Moves w (w.settle (deleteUserEntry plain platform subject key w)).2
      (Call.deleteUserEntry platform subject key).changes := by
  cases hsubject : readSubject subject with
  | none =>
    simp only [deleteUserEntry, hsubject, present, Call.changes]
    exact .refl w
  | some subject' =>
    cases hkey : readKey key with
    | none =>
      simp only [deleteUserEntry, ok_bind, hsubject, hkey, present, Call.changes]
      exact .refl w
    | some key' =>
      simp only [deleteUserEntry, ok_bind, hsubject, hkey, present, Call.changes]
      cases hrow : w.rows.entries.get? (platform, subject', key') with
      | none => exact .absent ⟨platform, .user subject', key'⟩ (Dict.get?_eq_none_iff.mp hrow)
      | some row =>
        exact .erase ⟨platform, .user subject', key'⟩ rfl
          (hasRow_erase_entries w.rows platform subject' key')

/-- What any call does on the plain map. -/
theorem perform_moves (w : World Values) (c : Call) : Moves w (c.perform plain w).2 c.changes := by
  cases c with
  | setConnection service key fields secret now =>
    exact setConnection_moves w service key fields secret now
  | getConnectionSecret service key => exact .refl w
  | deleteConnection service key => exact deleteConnection_moves w service key
  | setUserEntry platform subject key fields secret now =>
    exact setUserEntry_moves w platform subject key fields secret now
  | releaseUserSecret platform subject key => exact .refl w
  | deleteUserEntry platform subject key => exact deleteUserEntry_moves w platform subject key

theorem lastValue_concat (t : SecretTuple) (calls : List Call) (c : Call) :
    lastValue t (calls ++ [c]) =
      match c.changes with
      | some (t', value) => if t' = t then value else lastValue t calls
      | none => lastValue t calls := by
  simp [lastValue]

/-- The map holds what was set last, never an empty value, and each value has its row. -/
structure Recorded (w : World Values) (calls : List Call) : Prop where
  values : ∀ t, w.vault.get? t = lastValue t calls
  rows : ∀ t ∈ w.vault, HasRow w.rows t
  nonempty : ∀ t value, w.vault.get? t = some value → value ≠ ""

theorem recorded_empty : Recorded World.empty [] where
  values t := rfl
  rows t h := by cases h
  nonempty t value h := by cases h

theorem Recorded.step {w : World Values} {calls : List Call} (h : Recorded w calls) (c : Call) :
    Recorded (c.perform plain w).2 (calls ++ [c]) := by
  have hmoves := perform_moves w c
  generalize (c.perform plain w).2 = w' at hmoves
  cases hchanges : c.changes with
  | none =>
    rw [hchanges] at hmoves
    cases hmoves with
    | keep hvault hrows =>
      refine ⟨fun t => ?_, fun t ht => ?_, fun t value => ?_⟩
      · rw [hvault, lastValue_concat, hchanges, h.values]
      · rw [hvault] at ht
        exact hrows t (h.rows t ht)
      · rw [hvault]
        exact h.nonempty t value
  | some change =>
    rw [hchanges] at hmoves
    cases hmoves with
    | set t value hvalue hvault hrow hrows =>
      refine ⟨fun t' => ?_, fun t' ht' => ?_, fun t' value' hget => ?_⟩
      · rw [hvault, lastValue_concat, hchanges, Dict.get?_set, h.values]
        simp only [eq_comm]
      · rw [hvault, Dict.mem_set] at ht'
        rcases ht' with rfl | ht'
        · exact hrow
        · exact hrows t' (h.rows t' ht')
      · rw [hvault, Dict.get?_set] at hget
        split_ifs at hget
        · obtain rfl := Option.some.inj hget
          exact hvalue
        · exact h.nonempty t' value' hget
    | erase t hvault hrows =>
      refine ⟨fun t' => ?_, fun t' ht' => ?_, fun t' value' hget => ?_⟩
      · rw [hvault, lastValue_concat, hchanges, Dict.get?_erase, h.values]
        simp only [eq_comm]
      · rw [hvault, Dict.mem_erase] at ht'
        exact hrows t' ht'.1 (h.rows t' ht'.2)
      · rw [hvault, Dict.get?_erase] at hget
        split_ifs at hget
        exact h.nonempty t' value' hget
    | absent t hrow =>
      refine ⟨fun t' => ?_, h.rows, h.nonempty⟩
      rw [lastValue_concat, hchanges, h.values]
      dsimp only
      split_ifs with heq
      · -- what has no row has no value
        subst heq
        rw [← h.values]
        exact Dict.get?_eq_none_iff.mpr fun hmem => hrow (h.rows t hmem)
      · rfl

theorem recorded_run (calls : List Call) : Recorded (runCalls plain World.empty calls) calls := by
  induction calls using List.reverseRecOn with
  | nil => exact recorded_empty
  | append_singleton calls c ih =>
    rw [runCalls, List.foldl_concat]
    exact ih.step c

/-- What a read returns on the plain map. -/
theorem reads_lastValue (calls : List Call) (c : Call) {t : SecretTuple} (h : c.reads = some t) :
    (c.perform plain (runCalls plain World.empty calls)).1 = .ok (.secret (lastValue t calls)) := by
  have hrecorded := recorded_run calls
  generalize runCalls plain World.empty calls = w at hrecorded
  have hread : readValue plain t w.vault = .ok (.secret (lastValue t calls)) := by
    rw [← hrecorded.values]
    cases hget : w.vault.get? t with
    | none =>
      simp only [readValue, plain, ok_bind, hget]
      rfl
    | some value =>
      simp only [readValue, plain, ok_bind, hget, Option.getD_some, hrecorded.nonempty t value hget,
        if_false]
      rfl
  cases c with
  | getConnectionSecret service key =>
    cases hkey : readKey key with
    | none => simp [Call.reads, hkey] at h
    | some key' =>
      obtain rfl : (⟨service, .platform, key'⟩ : SecretTuple) = t := by
        simpa [Call.reads, hkey] using h
      simp only [Call.perform, Secrets.getConnectionSecret, hkey, present, ok_bind]
      exact hread
  | releaseUserSecret platform subject key =>
    cases hsubject : readSubject subject with
    | none => simp [Call.reads, hsubject] at h
    | some subject' =>
      cases hkey : readKey key with
      | none => simp [Call.reads, hsubject, hkey] at h
      | some key' =>
        obtain rfl : (⟨platform, .user subject', key'⟩ : SecretTuple) = t := by
          simpa [Call.reads, hsubject, hkey] using h
        simp only [Call.perform, Secrets.releaseUserSecret, hsubject, hkey, present, ok_bind]
        exact hread
  | _ => cases h

/-- A call on one tuple changes nothing that is read of another. -/
theorem lastValue_other (t : SecretTuple) (calls : List Call) (c : Call)
    (h : ∀ value, c.changes ≠ some (t, value)) : lastValue t (calls ++ [c]) = lastValue t calls := by
  rw [lastValue_concat]
  split
  · rename_i t' value hchanges
    rw [if_neg]
    rintro rfl
    exact h value hchanges
  · rfl

instance (values : Values) (op : StoreOp) : Decidable (AzureKeyVault.Fits values op) := by
  unfold AzureKeyVault.Fits
  cases op <;> infer_instance

instance Along.decidable (Fits : Values → StoreOp → Prop) [∀ values op, Decidable (Fits values op)] :
    ∀ w calls, Decidable (Along Fits w calls)
  | _, [] => inferInstanceAs (Decidable True)
  | w, c :: cs =>
      have := Along.decidable Fits (c.perform plain w).2 cs
      inferInstanceAs (Decidable ((∀ op ∈ c.storeOp w.rows, Fits w.vault op) ∧
        Along Fits (c.perform plain w).2 cs))

/-- Values as they are. -/
def plainCipher : Cipher where
  encrypt := utf8
  decrypt raw := .ok (String.ofList (decodeUtf8 raw))
  inverse value := by simp [utf8]

-- where nothing is set the vault raises, and the other stores answer that there is none
example : (answers AzureKeyVault.backend World.empty [.getConnectionSecret "Svc" "weather"],
    answers FileBacked.backend World.empty [.getConnectionSecret "Svc" "weather"]) =
      ([.error .secretNotFound], [.ok (.secret none)]) := by
  decide +kernel

end Secrets
end Recto
