import Recto.Config.Readable

/-!
# What is written and what is loaded

A configuration that is returned has an entry for each entry of the document,
unless names that differ in the document are the same as strings, or a secret
leaves a field null: such an entry is dropped without a problem.
-/

namespace Recto
namespace Config

open Json

variable {u : Unicode}

/-! ## Dictionaries -/

theorem nodup_foldl_setItem {κ ν : Type} [DecidableEq κ] (pairs : List (κ × ν)) {start : List (κ × ν)}
    (h : (start.map Prod.fst).Nodup) :
    ((pairs.foldl (fun items p => setItem p.1 p.2 items) start).map Prod.fst).Nodup := by
  induction pairs generalizing start with
  | nil => exact h
  | cons p pairs ih => exact ih (nodup_setItem p.1 p.2 h)

/-- A dictionary has the pairs it was made of exactly if their keys are distinct. -/
theorem foldl_setItem_eq_self_iff {pairs : List (String × String)} :
    pairs.foldl (fun items p => setItem p.1 p.2 items) [] = pairs ↔ (pairs.map Prod.fst).Nodup := by
  constructor
  · intro h
    rw [← h]
    exact nodup_foldl_setItem pairs List.nodup_nil
  · exact fun h => foldl_setItem_append pairs [] (by simpa using h)

/-- Keys that differ in the document differ as strings. -/
def KeysDistinct (u : Unicode) (entries : List (Scalar × Yaml)) : Prop :=
  ∀ pairs, strEntries u entries = .ok pairs → (pairs.map Prod.fst).Nodup

theorem strDict_written_iff {entries : List (Scalar × Yaml)} {items : List (String × String)}
    (h : strDict u entries = .ok items) :
    strEntries u entries = .ok items ↔ KeysDistinct u entries := by
  unfold KeysDistinct
  obtain ⟨pairs, hpairs, rfl⟩ := Except.map_eq_ok.mp h
  rw [hpairs, Except.ok.injEq, eq_comm, foldl_setItem_eq_self_iff]
  constructor
  · intro hnodup pairs' hpairs'
    exact Except.ok.inj hpairs' ▸ hnodup
  · exact fun hnodup => hnodup pairs rfl

/-! ## Secrets and webhooks -/

/-- The secret has what is written of it. -/
structure SecretWritten (u : Unicode) (d : List (Scalar × Yaml)) (s : SecretSpec) : Prop where
  name : ∃ x ∈ given d "name", strOf u.printable x = .ok s.name
  source : ∃ x ∈ given d "source", strOf u.printable x = .ok s.source
  targetEnv : ∃ x ∈ given d "target_env", strOf u.printable x = .ok s.targetEnv
  required : s.required = (getBool d "required" true).truthy
  config : dictOf (getOr d "config" noEntries) = .ok s.config

/-- The webhook has what is written of it. -/
structure CommsWritten (u : Unicode) (d : List (Scalar × Yaml)) (c : CommsFields) : Prop where
  type : strOf u.printable (getStr d "type" "webhook") = .ok c.type
  url : strOf u.printable (getStr d "url" "") = .ok c.url
  headers : ∃ headers, dictOf (getOr d "headers" noEntries) = .ok headers ∧
    strEntries u headers = .ok c.headers
  template : dictOf (getOr d "template" noEntries) = .ok c.template

/-- No field that a secret needs is null. -/
def NothingNull (d : List (Scalar × Yaml)) : Prop :=
  (given d "name").isSome ∧ (given d "source").isSome ∧ (given d "target_env").isSome

/-- The headers of a webhook have names that differ as strings. -/
def HeadersDistinct (u : Unicode) (d : List (Scalar × Yaml)) : Prop :=
  ∀ headers, dictOf (getOr d "headers" noEntries) = .ok headers → KeysDistinct u headers

theorem buildSecretSpec_written_iff (d : List (Scalar × Yaml)) (path : String) (o : Option SecretSpec)
    (h : buildSecretSpec u d path = .ok (o, [])) :
    (∃ s, o = some s ∧ SecretWritten u d s) ↔ NothingNull d := by
  have hnone : o = none → ¬NothingNull d →
      ((∃ s, o = some s ∧ SecretWritten u d s) ↔ NothingNull d) := by
    rintro rfl hnull
    exact iff_of_false (by simp) hnull
  unfold buildSecretSpec at h
  simp only [require_fst] at h
  cases hname : given d "name" with
  | none =>
    rw [hname] at h
    exact hnone (Prod.mk.inj (Except.ok.inj h)).1.symm (by simp [NothingNull, hname])
  | some name =>
    cases hsource : given d "source" with
    | none =>
      rw [hname, hsource] at h
      exact hnone (Prod.mk.inj (Except.ok.inj h)).1.symm (by simp [NothingNull, hsource])
    | some source =>
      cases htarget : given d "target_env" with
      | none =>
        rw [hname, hsource, htarget] at h
        exact hnone (Prod.mk.inj (Except.ok.inj h)).1.symm (by simp [NothingNull, htarget])
      | some targetEnv =>
        rw [hname, hsource, htarget] at h
        simp only [Except.bind_eq_ok, Except.pure_eq_ok, Prod.mk.injEq] at h
        obtain ⟨name', hname', source', hsource', target', htarget', config, hconfig, rfl, -⟩ := h
        refine iff_of_true ⟨_, rfl, ⟨name, hname, hname'⟩, ⟨source, hsource, hsource'⟩,
          ⟨targetEnv, htarget, htarget'⟩, rfl, hconfig⟩ ?_
        simp [NothingNull, hname, hsource, htarget]

theorem postInit_eq_ok {α : Type} {checks : α → List Check} {x : α} {c : Checked checks}
    (h : postInit checks x = .ok (.ok c)) : c.1 = x := by
  unfold postInit at h
  split at h
  · cases h
  · cases h
  · obtain rfl := Except.ok.inj (Except.ok.inj h)
    rfl

theorem postInit_problems {α : Type} {checks : α → List Check} {x : α} {problems : List String}
    (h : postInit checks x = .ok (.error problems)) : problems ≠ [] := by
  unfold postInit at h
  split at h
  · cases h
  · obtain rfl := Except.error.inj (Except.ok.inj h)
    simp
  · cases h

/-- A part without problems is there. -/
theorem reporting_eq_ok {α : Type} {prefixed : String → String} {x : Except PyError (Made α)}
    {o : Option α} (h : reporting prefixed x = .ok (o, [])) :
    (∃ a, o = some a ∧ x = .ok (.ok a)) ∨ x = .ok (.error []) := by
  cases x with
  | error e => cases h
  | ok made =>
    cases made with
    | ok a => exact .inl ⟨a, (Prod.mk.inj (Except.ok.inj h)).1.symm, rfl⟩
    | error problems =>
      have hmap := (Prod.mk.inj (Except.ok.inj h)).2
      rw [List.map_eq_nil_iff] at hmap
      exact .inr (by rw [hmap])

theorem buildCommsSpec_written_iff (d : List (Scalar × Yaml)) (path : String)
    (o : Option (Checked (CommsFields.checks u))) (h : buildCommsSpec u d path = .ok (o, [])) :
    (∃ c, o = some c ∧ CommsWritten u d c.1) ↔ HeadersDistinct u d := by
  unfold buildCommsSpec at h
  rcases reporting_eq_ok h with ⟨c, rfl, hc⟩ | hproblems
  · simp only [Except.bind_eq_ok] at hc
    obtain ⟨type, htype, url, hurl, headers, hheaders, items, hitems, template, htemplate, hinit⟩ := hc
    have hfields := postInit_eq_ok hinit
    have hwritten := strDict_written_iff hitems
    have hdistinct : HeadersDistinct u d ↔ KeysDistinct u headers := by
      unfold HeadersDistinct
      rw [hheaders]
      constructor
      · exact fun hall => hall headers rfl
      · rintro hkeys headers' hheaders'
        exact Except.ok.inj hheaders' ▸ hkeys
    rw [hdistinct, ← hwritten]
    constructor
    · rintro ⟨c', hc', hall⟩
      obtain rfl := Option.some.inj hc'
      obtain ⟨headers', hheaders', hstr⟩ := hall.headers
      rw [hheaders, Except.ok.injEq] at hheaders'
      rw [hheaders', hstr, hfields]
    · intro hstr
      exact ⟨c, rfl, by rw [hfields]; exact htype, by rw [hfields]; exact hurl,
        ⟨headers, hheaders, by rw [hfields]; exact hstr⟩, by rw [hfields]; exact htemplate⟩
  · simp only [Except.bind_eq_ok] at hproblems
    obtain ⟨type, -, url, -, headers, -, items, -, template, -, hinit⟩ := hproblems
    exact absurd rfl (postInit_problems hinit)

/-! ## Sections that are lists -/

/-- One entry for each mapping of the section. -/
def EachWritten {α : Type} (written : List (Scalar × Yaml) → α → Prop) (name : String)
    (spec : List (Scalar × Yaml)) (xs : List α) : Prop :=
  ∃ items, itemsOf (orElse (getOr spec name (.list [])) (.list [])) = .ok items ∧
    List.Forall₂ (fun item x => ∃ d, item = .map d ∧ written d x) items xs

/-- Every mapping of the section is so. -/
def EachItem (p : List (Scalar × Yaml) → Prop) (name : String) (spec : List (Scalar × Yaml)) : Prop :=
  ∀ items, itemsOf (orElse (getOr spec name (.list [])) (.list [])) = .ok items →
    ∀ d, Yaml.map d ∈ items → p d

section
variable {α : Type} {build : List (Scalar × Yaml) → String → Except PyError (Built α)}
  {written : List (Scalar × Yaml) → α → Prop} {p : List (Scalar × Yaml) → Prop}

theorem length_buildFrom {field : String} {i : ℕ} {items : List Yaml} {xs : List α}
    {problems : List String} (h : buildFrom build field i items = .ok (xs, problems)) :
    xs.length ≤ items.length := by
  induction items generalizing i xs problems with
  | nil =>
    obtain ⟨rfl, -⟩ := Prod.mk.inj (Except.ok.inj h)
    exact le_rfl
  | cons item items ih =>
    simp only [buildFrom, Except.bind_eq_ok, Except.pure_eq_ok, Prod.mk.injEq] at h
    obtain ⟨built, -, later, hlater, rfl, -⟩ := h
    have hrest := ih hlater
    cases built.1 <;> simp <;> omega

theorem buildFrom_written_iff
    (hbuild : ∀ d path o, build d path = .ok (o, []) → ((∃ x, o = some x ∧ written d x) ↔ p d))
    {field : String} {i : ℕ} {items : List Yaml} {xs : List α}
    (h : buildFrom build field i items = .ok (xs, [])) :
    List.Forall₂ (fun item x => ∃ d, item = .map d ∧ written d x) items xs ↔
      ∀ d, Yaml.map d ∈ items → p d := by
  induction items generalizing i xs with
  | nil =>
    obtain ⟨rfl, -⟩ := Prod.mk.inj (Except.ok.inj h)
    simp
  | cons item items ih =>
    simp only [buildFrom, Except.bind_eq_ok, Except.pure_eq_ok, Prod.mk.injEq,
      List.append_eq_nil_iff] at h
    obtain ⟨⟨o, problems⟩, hbuilt, ⟨ys, more⟩, hlater, rfl, rfl, rfl⟩ := h
    have hrest := ih hlater
    have hlength := length_buildFrom hlater
    cases item with
    | map d =>
      have hitem := hbuild d _ o hbuilt
      simp only [List.mem_cons, Yaml.map.injEq, forall_eq_or_imp]
      cases o with
      | none =>
        -- The entry is dropped, so that there are too few.
        refine iff_of_false (fun hall => ?_) fun hall => ?_
        · have := hall.length_eq
          simp only [Option.toList_none, List.nil_append, List.length_cons] at this
          omega
        · obtain ⟨x, hx, -⟩ := hitem.mpr hall.1
          cases hx
      | some x =>
        rw [Option.toList_some, List.singleton_append, List.forall₂_cons, hrest, ← hitem]
        refine and_congr_left fun _ => ?_
        constructor
        · rintro ⟨d', hd', hx⟩
          exact ⟨x, rfl, (Yaml.map.inj hd') ▸ hx⟩
        · rintro ⟨x', hx', hx⟩
          exact ⟨d, rfl, (Option.some.inj hx') ▸ hx⟩
    | scalar _ => cases (Prod.mk.inj (Except.ok.inj hbuilt)).2
    | list _ => cases (Prod.mk.inj (Except.ok.inj hbuilt)).2

theorem buildEach_written_iff
    (hbuild : ∀ d path o, build d path = .ok (o, []) → ((∃ x, o = some x ∧ written d x) ↔ p d))
    {name : String} {spec : List (Scalar × Yaml)} {xs : List α}
    (h : buildEach build name spec = .ok (xs, [])) :
    EachWritten written name spec xs ↔ EachItem p name spec := by
  obtain ⟨items, hitems, hbuilt⟩ := Except.bind_eq_ok.mp h
  unfold EachWritten EachItem
  rw [hitems]
  simp only [Except.ok.injEq, exists_eq_left', forall_eq']
  exact buildFrom_written_iff hbuild hbuilt

end

/-! ## The whole document -/

/-- Secrets, arguments, environment and webhooks are the entries written. -/
structure Exact (u : Unicode) (spec : List (Scalar × Yaml)) (x : SpecFields u) : Prop where
  secrets : EachWritten (SecretWritten u) "secrets" spec x.secrets
  args : (argsOf spec).1.mapM (strOf u.printable) = .ok x.args
  env : strEntries u (envOf spec).1 = .ok x.env
  comms : EachWritten (fun d c => CommsWritten u d c.1) "comms" spec x.comms

/-- No secret leaves a field it needs null, and no two variables and no two headers of a webhook have
names that are the same as strings. -/
structure Spelled (u : Unicode) (spec : List (Scalar × Yaml)) : Prop where
  secrets : EachItem NothingNull "secrets" spec
  env : KeysDistinct u (envOf spec).1
  headers : EachItem (HeadersDistinct u) "comms" spec

theorem exact_iff {spec : List (Scalar × Yaml)} {x : Sections u}
    {fields : Checked (SpecFields.checks (u := u))} (hsections : buildSections u spec = .ok x)
    (hproblems : x.problems = []) (hspec : buildSpec spec x = .ok (some fields, [])) :
    Exact u spec fields.1 ↔ Spelled u spec := by
  unfold buildSections at hsections
  simp only [Except.bind_eq_ok, Except.pure_eq_ok] at hsections
  obtain ⟨secrets, hsecrets, healthz, -, restart, -, comms, hcomms, limits, -, adminUi, -,
    telemetry, -, rfl⟩ := hsections
  simp only [Sections.problems, List.append_eq_nil_iff] at hproblems
  obtain ⟨⟨⟨⟨hnoSecrets, -⟩, -⟩, hnoComms⟩, -⟩ := hproblems
  obtain ⟨secrets, problems⟩ := secrets
  obtain ⟨comms, problems'⟩ := comms
  obtain rfl : problems = [] := hnoSecrets
  obtain rfl : problems' = [] := hnoComms
  unfold buildSpec at hspec
  simp only [Except.bind_eq_ok, Except.pure_eq_ok, Prod.mk.injEq] at hspec
  obtain ⟨built, hbuilt, hsome, hnone⟩ := hspec
  obtain ⟨o, more⟩ := built
  obtain rfl : more = [] := (List.append_eq_nil_iff.mp hnone).2
  obtain rfl : o = some fields := hsome
  rcases reporting_eq_ok hbuilt with ⟨fields', hfields', hmade⟩ | hmade
  · obtain rfl := Option.some.inj hfields'
    simp only [Except.bind_eq_ok] at hmade
    obtain ⟨exec, -, args, hargs, dir, -, user, -, env, henv, hinit⟩ := hmade
    have hfields := postInit_eq_ok hinit
    have hsecret := buildEach_written_iff buildSecretSpec_written_iff hsecrets
    have hcomm := buildEach_written_iff buildCommsSpec_written_iff hcomms
    have hvars := strDict_written_iff henv
    constructor
    · rintro ⟨hsecrets', -, henv', hcomms'⟩
      rw [hfields] at hsecrets' henv' hcomms'
      exact ⟨hsecret.mp hsecrets', hvars.mp henv', hcomm.mp hcomms'⟩
    · rintro ⟨hsecrets', henv', hcomms'⟩
      refine ⟨?_, ?_, ?_, ?_⟩ <;> rw [hfields]
      · exact hsecret.mpr hsecrets'
      · exact hargs
      · exact hvars.mpr henv'
      · exact hcomm.mpr hcomms'
  · simp only [Except.bind_eq_ok] at hmade
    obtain ⟨exec, -, args, -, dir, -, user, -, env, -, hinit⟩ := hmade
    exact absurd rfl (postInit_problems hinit)

theorem finish_eq_ok {metadata : Option (Checked (MetaFields.checks u))}
    {spec : Option (Checked (SpecFields.checks (u := u)))} {problems : List String}
    {config : ServiceConfig u} (h : finish metadata spec problems = .ok (.ok config)) :
    problems = [] ∧ spec = some config.1.spec := by
  unfold finish at h
  split at h
  · rename_i fields made
    obtain ⟨result, hinit, h⟩ := Except.bind_eq_ok.mp h
    cases result with
    | error more => cases Except.ok.inj h
    | ok config' =>
      rw [Except.pure_eq_ok] at h
      split_ifs at h with hproblems
      obtain rfl := Except.ok.inj h
      exact ⟨hproblems, by rw [postInit_eq_ok hinit]⟩
  · cases Except.ok.inj h

/-- What `load_config` is to do with a document: return a configuration with the entries written, or
raise `ConfigValidationError`. That the checks of every part pass is carried by its type. -/
def Meets (u : Unicode) (document : Yaml) : Prop :=
  ∃ made, loadConfig u document = .ok made ∧ ∀ config, made = .ok config →
    ∃ data, orElse document noEntries = .map data ∧
      Exact u (mappingOf data "spec").1 config.1.spec.1

/-- ASCII, all of which `repr` shows as it is. -/
def asciiOnly : Unicode := ⟨fun _ => true, CharTables.ascii⟩

/-- A service file with the number of its secrets in place of the secrets. -/
def countedSecrets : Yaml :=
  .map [(.str "apiVersion", .scalar (.str "recto/v1")), (.str "kind", .scalar (.str "Service")),
    (.str "metadata", .map [(.str "name", .scalar (.str "myservice"))]),
    (.str "spec", .map [(.str "exec", .scalar (.str "python.exe")),
      (.str "secrets", .scalar (.int 2))])]

end Config
end Recto
