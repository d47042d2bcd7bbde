import Kaiion.Client.Configure
import Kaiion.Foundation.Result

/-! Configuring a client changes only the places it owns, and doing it again changes nothing. -/
namespace Kaiion.Client
open Foundation

variable {options : ConfigureOptions}

/-- The headers, as edits. -/
def headerEdits (options : ConfigureOptions) : List (String × Edit) :=
  ("x-kaiion-mode", .set (.string (modeText (clientMode options)))) ::
    options.sessionId.toList.map (fun session => ("x-kaiion-session-id", .set (.string session)))

private theorem headerEdits_keys (options : ConfigureOptions) : ((headerEdits options).map Prod.fst).Nodup := by
  unfold headerEdits
  cases options.sessionId with
  | none => simp
  | some session => simp

def headersEdit (options : ConfigureOptions) (error : String) : Edit :=
  .object error (headerEdits options) (headerEdits_keys options) (by simp [headerEdits])

def opencodeEdit (options : ConfigureOptions) (path : String) : Edit :=
  .object s!"OpenCode config {path} must contain an object"
    [("provider", .object "OpenCode provider must be an object"
      [("kaiion", .object "OpenCode kaiion provider must be an object"
        [("npm", .set (.string "@ai-sdk/openai")),
          ("name", .set (.string "Kaiion")),
          ("options", .object "OpenCode kaiion options must be an object"
            [("baseURL", .set (.string options.proxyUrl)),
              ("apiKey", .set (.string "\x7benv:OPENAI_API_KEY\x7d")),
              ("headers", headersEdit options "OpenCode kaiion headers must be an object")] (by simp) (by simp)),
          ("models", .entry "OpenCode kaiion models must be an object" options.model
            (.object [("name", .string options.model)]))] (by simp) (by simp))] (by simp) (by simp)),
      ("model", .set (.string ("kaiion/" ++ options.model)))] (by simp) (by simp)

private theorem configureHeaders_eq (headers : Members) :
    headers.editAll (headerEdits options) = .ok (configureHeaders options headers) := by
  unfold headerEdits configureHeaders
  cases options.sessionId with
  | none => rfl
  | some session => rfl

private theorem map_eq_bind {α β : Type} (x : Except String α) (f : α → β) :
    x.map f = x >>= fun a => .ok (f a) := by
  cases x with
  | error error => rfl
  | ok a => rfl

private theorem asObject_eq (error : String) (document : Value) :
    asObject error document = membersOr error (some document) := by
  cases document <;> rfl

private theorem entryObject_eq (members : Members) (key error : String) :
    entryObject members key error = membersOr error (members.get key) := by
  unfold entryObject membersOr asObject
  rfl

private theorem entryArray_eq (members : Members) (key error : String) :
    entryArray members key error = itemsOr error (members.get key) := by
  unfold entryArray itemsOr
  rfl

private theorem ok_bind {α β : Type} (a : α) (f : α → Except String β) : (Except.ok a >>= f) = f a := rfl

/-- OpenCode's document is edited at its places one after the other. -/
theorem opencodeDocument_eq (path : String) (document : Value) :
    opencodeDocument options path document = (opencodeEdit options path).apply (some document) := by
  unfold opencodeDocument opencodeEdit headersEdit
  simp only [Edit.object, Edit.entry, Edit.set_apply, Members.editAll, Members.edit, map_eq_bind, asObject_eq,
    entryObject_eq, configureHeaders_eq, bind_assoc, ok_bind, pure, Except.pure]

private theorem isModel_new (model : String) :
    isModel model (.object [("id", .string model), ("name", .string model)]) = true ∧
      nameModel model (.object [("id", .string model), ("name", .string model)]) =
        .object [("id", .string model), ("name", .string model)] := by
  constructor
  · simp [isModel, Members.get, Value.asStr]
  · have hlt : ¬ "name" < "id" := by decide
    simp [nameModel, Members.insert, hlt]

/-- Naming an entry keeps its id. -/
private theorem isModel_nameModel (model : String) (entry : Value) (h : isModel model entry = true) :
    isModel model (nameModel model entry) = true ∧
      nameModel model (nameModel model entry) = nameModel model entry := by
  cases entry with
  | object members =>
    constructor
    · unfold isModel nameModel at *
      rw [Value.get_object, Members.get_insert_of_ne (by decide)]
      exact h
    · unfold nameModel
      dsimp only
      rw [Members.insert_insert]
  | _ => exact ⟨h, rfl⟩

def piEdit (options : ConfigureOptions) (path : String) : Edit :=
  .object s!"Pi config {path} must contain an object"
    [("providers", .object "Pi providers must be an object"
      [("kaiion", .object "Pi kaiion provider must be an object"
        [("baseUrl", .set (.string options.proxyUrl)),
          ("api", .set (.string "openai-responses")),
          ("apiKey", .set (.string "$OPENAI_API_KEY")),
          ("models", .item "Pi kaiion models must be an array" (isModel options.model) (nameModel options.model)
            (.object [("id", .string options.model), ("name", .string options.model)]) (isModel_new options.model)
            (isModel_nameModel options.model)),
          ("headers", headersEdit options "Pi kaiion headers must be an object")] (by simp) (by simp))]
        (by simp) (by simp))] (by simp) (by simp)

theorem piDocument_eq (path : String) (document : Value) :
    piDocument options path document = (piEdit options path).apply (some document) := by
  unfold piDocument piEdit headersEdit
  simp only [Edit.object, Edit.item, Edit.set_apply, Members.editAll, Members.edit, map_eq_bind, asObject_eq,
    entryObject_eq, entryArray_eq, configureHeaders_eq, bind_assoc, ok_bind, pure, Except.pure]

/-- What Kaiion owns of OpenCode's document. -/
def opencodeOwned (options : ConfigureOptions) : List Path :=
  [.key "model"] :: List.map (fun place : Path => .key "provider" :: .key "kaiion" :: place)
    [[.key "npm"], [.key "name"], [.key "options", .key "baseURL"], [.key "options", .key "apiKey"],
      [.key "options", .key "headers", .key "x-kaiion-mode"],
      [.key "options", .key "headers", .key "x-kaiion-session-id"], [.key "models", .key options.model]]

/-- The position of the model's entry in Pi's list: the first for it, or the one past the end. -/
def piPosition (options : ConfigureOptions) (document : Value) : Nat :=
  let models := lookup (some document) [.key "providers", .key "kaiion", .key "models"]
  ((models.bind Value.asArray).getD []).findIdx (isModel options.model)

/-- What Kaiion owns of Pi's document. -/
def piOwned (options : ConfigureOptions) (document : Value) : List Path :=
  List.map (fun place : Path => .key "providers" :: .key "kaiion" :: place)
    [[.key "baseUrl"], [.key "api"], [.key "apiKey"], [.key "models", .index (piPosition options document)],
      [.key "headers", .key "x-kaiion-mode"], [.key "headers", .key "x-kaiion-session-id"]]

private theorem headersEdit_owned {error : String} {old : Option Value} {own : Path}
    (h : own ∈ (headersEdit options error).owned old) :
    own = [.key "x-kaiion-mode"] ∨ own = [.key "x-kaiion-session-id"] := by
  unfold headersEdit Edit.object headerEdits at h
  cases hsession : options.sessionId with
  | none => simp_all [Edit.set]
  | some session => simp_all [Edit.set]

private theorem opencodeEdit_owned {path : String} {old : Option Value} {own : Path}
    (h : own ∈ (opencodeEdit options path).owned old) : own ∈ opencodeOwned options := by
  unfold opencodeEdit at h
  simp only [Edit.object, Edit.set, Edit.entry, List.flatMap_cons, List.flatMap_nil, List.append_nil, List.map_cons,
    List.map_nil, List.map_append, List.mem_append, List.mem_map, List.mem_cons, List.not_mem_nil, or_false] at h
  rcases h with (rfl | rfl | (rfl | rfl | ⟨_, ⟨_, ⟨_, ⟨header, hheader, rfl⟩, rfl⟩, rfl⟩, rfl⟩) | rfl) | rfl
  case inl.inr.inr.inl.inr.inr =>
    rcases headersEdit_owned hheader with rfl | rfl
    · simp [opencodeOwned]
    · simp [opencodeOwned]
  all_goals simp [opencodeOwned]

private theorem piEdit_owned {path : String} {document : Value} {own : Path}
    (h : own ∈ (piEdit options path).owned (some document)) : own ∈ piOwned options document := by
  unfold piEdit at h
  simp only [Edit.object, Edit.set, Edit.item, List.flatMap_cons, List.flatMap_nil, List.append_nil, List.map_cons,
    List.map_nil, List.map_append, List.mem_append, List.mem_map, List.mem_cons, List.not_mem_nil, or_false] at h
  rcases h with rfl | rfl | rfl | rfl | ⟨_, ⟨_, ⟨header, hheader, rfl⟩, rfl⟩, rfl⟩
  case inr.inr.inr.inr =>
    rcases headersEdit_owned hheader with rfl | rfl
    · simp [piOwned]
    · simp [piOwned]
  case inr.inr.inr.inl => simp [piOwned, piPosition, lookup]
  all_goals simp [piOwned]

theorem opencodeDocument_framed {path : String} {old new : Value}
    (h : opencodeDocument options path old = .ok new) :
    Framed (opencodeOwned options) (some old) (some new) ∧ opencodeDocument options path new = .ok new := by
  rw [opencodeDocument_eq] at h ⊢
  exact ⟨((opencodeEdit options path).frames h).mono fun _ => opencodeEdit_owned, (opencodeEdit options path).settles h⟩

theorem piDocument_framed {path : String} {old new : Value} (h : piDocument options path old = .ok new) :
    Framed (piOwned options old) (some old) (some new) ∧ piDocument options path new = .ok new := by
  rw [piDocument_eq] at h ⊢
  exact ⟨((piEdit options path).frames h).mono fun _ => piEdit_owned, (piEdit options path).settles h⟩

section Host
variable {tools : Tools} {faults : Faults} {files : Files} {path content : String} {dryRun : Bool}
variable {edit : Value → Except String Value}

@[simp] theorem Files.write_self (files : Files) (path content : String) :
    files.write path content path = some content :=
  if_pos rfl

/-- Writing what is there changes nothing. -/
theorem Files.write_of_eq (h : files path = some content) : files.write path content = files := by
  funext other
  unfold Files.write
  split
  next heq => rw [heq, h]
  · rfl

theorem writeText_cases (faults : Faults) (files : Files) (path content : String) (dryRun : Bool) :
    (∃ error, writeText faults files path content dryRun = (files, .error error)) ∨
    dryRun = true ∧ writeText faults files path content dryRun = (files, .ok ()) ∨
    dryRun = false ∧ writeText faults files path content dryRun = (files.write path content, .ok ()) := by
  unfold writeText
  cases dryRun with
  | true => exact .inr (.inl ⟨rfl, rfl⟩)
  | false =>
    rw [if_neg Bool.false_ne_true]
    cases faults.createDirectory with
    | some error => exact .inl ⟨_, rfl⟩
    | none =>
      cases faults.write with
      | some error => exact .inl ⟨_, rfl⟩
      | none => exact .inr (.inr ⟨rfl, rfl⟩)

/-- A command fails, only says what it would do, or has written the edited document. -/
theorem configureDocument_cases (tools : Tools) (faults : Faults) (dryRun : Bool) (path : String)
    (edit : Value → Except String Value) (files : Files) :
    (∃ error, configureDocument tools faults dryRun path edit files = (files, .error error)) ∨
    dryRun = true ∧ configureDocument tools faults dryRun path edit files = (files, .ok ()) ∨
    ∃ old new text, readJson tools faults files path = .ok old ∧ edit old = .ok new ∧ tools.pretty new = .ok text ∧
      configureDocument tools faults dryRun path edit files = (files.write path (text ++ "\n"), .ok ()) := by
  unfold configureDocument
  cases hread : readJson tools faults files path with
  | error error => exact .inl ⟨error, rfl⟩
  | ok old =>
    dsimp only
    cases hedit : edit old with
    | error error => exact .inl ⟨error, rfl⟩
    | ok new =>
      dsimp only
      unfold writeJson
      cases hpretty : tools.pretty new with
      | error error => exact .inl ⟨_, rfl⟩
      | ok text =>
        rcases writeText_cases faults files path (text ++ "\n") dryRun with h | h | ⟨-, h⟩
        · exact .inl h
        · exact .inr (.inl h)
        · exact .inr (.inr ⟨old, new, text, rfl, hedit, hpretty, h⟩)

/-- Over a document that reads back as it was written, a settled edit changes no file. -/
theorem configureDocument_again (faults : Faults) (dryRun : Bool) {document : Value} {text : String}
    (hstored : files path = some (text ++ "\n")) (hparse : tools.parse (text ++ "\n") = .ok document)
    (hedit : edit document = .ok document) (hpretty : tools.pretty document = .ok text) :
    (configureDocument tools faults dryRun path edit files).1 = files := by
  rcases configureDocument_cases tools faults dryRun path edit files with
    ⟨error, h⟩ | ⟨-, h⟩ | ⟨old, new, other, hread, hnew, hother, h⟩
  · rw [h]
  · rw [h]
  · have hold : old = document := by
      unfold readJson at hread
      rw [hstored] at hread
      cases hfault : faults.read with
      | some error =>
        rw [hfault] at hread
        cases hread
      | none =>
        rw [hfault] at hread
        simp only [hparse] at hread
        exact (Except.ok.inj hread).symm
    obtain rfl := hold
    obtain rfl := Except.ok.inj (hedit.symm.trans hnew)
    obtain rfl := Except.ok.inj (hpretty.symm.trans hother)
    rw [h]
    exact Files.write_of_eq hstored

end Host

/-- A command has written a document that differs from the one it read at the owned places only; the same
edit leaves that document alone, and so does the same command as long as the text reads back. -/
structure Written (tools : Tools) (run : Faults → Files → Files × Except String Unit) (path : String)
    (edit : Value → Except String Value) (owned : Value → List Path) (faults : Faults) (files : Files)
    (old new : Value) (text : String) : Prop where
  read : readJson tools faults files path = .ok old
  printed : tools.pretty new = .ok text
  wrote : run faults files = (files.write path (text ++ "\n"), .ok ())
  framed : Framed (owned old) (some old) (some new)
  settled : edit new = .ok new
  again : tools.parse (text ++ "\n") = .ok new → ∀ later,
    (run later (files.write path (text ++ "\n"))).1 = files.write path (text ++ "\n")

/-- A command fails and leaves every file alone, or has written. -/
def FailsOrWrites (tools : Tools) (run : Faults → Files → Files × Except String Unit) (path : String)
    (edit : Value → Except String Value) (owned : Value → List Path) (faults : Faults) (files : Files) : Prop :=
  (∃ error, run faults files = (files, .error error)) ∨
    ∃ old new text, Written tools run path edit owned faults files old new text

def OpencodeSafe (tools : Tools) (options : ConfigureOptions) (faults : Faults) (files : Files) : Prop :=
  FailsOrWrites tools (configureOpencode tools options) (opencodePath options files)
    (opencodeDocument options (opencodePath options files)) (fun _ => opencodeOwned options) faults files

def PiSafe (tools : Tools) (options : ConfigureOptions) (faults : Faults) (files : Files) : Prop :=
  FailsOrWrites tools (configurePi tools options) (piPath options) (piDocument options (piPath options))
    (piOwned options) faults files

/-- The document is looked for where it was written. -/
theorem opencodePath_write (options : ConfigureOptions) (files : Files) (content : String) :
    opencodePath options (files.write (opencodePath options files) content) = opencodePath options files := by
  unfold opencodePath
  dsimp only
  generalize join options.home ".config/opencode/opencode.json" = jsonPath
  generalize join options.home ".config/opencode/opencode.jsonc" = jsoncPath
  split
  next hjson => simp
  next hjson =>
    split
    next hjsonc =>
      by_cases heq : jsonPath = jsoncPath
      · simp [heq]
      · simp [Files.write, heq, hjson]
    next hjsonc => simp

/-- A command that edits one document, with an edit that changes only what it owns and settles. -/
private theorem fails_or_writes {tools : Tools} {run : Faults → Files → Files × Except String Unit} {path : String}
    {edit : Value → Except String Value} {owned : Value → List Path} {faults : Faults} {files : Files} {dryRun : Bool}
    (hrun : run faults files = configureDocument tools faults dryRun path edit files)
    (hedits : ∀ old new, edit old = .ok new → Framed (owned old) (some old) (some new) ∧ edit new = .ok new)
    (hlater : ∀ later content, run later (files.write path content) =
      configureDocument tools later dryRun path edit (files.write path content)) :
    FailsOrWrites tools run path edit owned faults files ∨ dryRun = true ∧ run faults files = (files, .ok ()) := by
  rcases configureDocument_cases tools faults dryRun path edit files with
    ⟨error, herror⟩ | ⟨hdry, hshown⟩ | ⟨old, new, text, hread, hedit, hpretty, hwrote⟩
  · exact .inl (.inl ⟨error, hrun.trans herror⟩)
  · exact .inr ⟨hdry, hrun.trans hshown⟩
  · obtain ⟨hframed, hsettled⟩ := hedits old new hedit
    refine .inl (.inr ⟨old, new, text, hread, hpretty, hrun.trans hwrote, hframed, hsettled, fun hparse later => ?_⟩)
    rw [hlater]
    exact configureDocument_again later dryRun (Files.write_self files _ _) hparse hsettled hpretty

/-- Client configuration. For every document, every set of options and whatever the host reports, each of the
two commands fails without writing anything, or in a dry run succeeds without writing anything, or writes a
document that differs from the old one at the places it owns only; configuring again changes nothing. -/
theorem client_configuration_framed (tools : Tools) (options : ConfigureOptions) (faults : Faults) (files : Files) :
    (OpencodeSafe tools options faults files ∨
      options.dryRun = true ∧ configureOpencode tools options faults files = (files, .ok ())) ∧
    (PiSafe tools options faults files ∨
      options.dryRun = true ∧ configurePi tools options faults files = (files, .ok ())) := by
  refine ⟨fails_or_writes rfl (fun _ _ => opencodeDocument_framed) fun later content => ?_,
    fails_or_writes rfl (fun _ _ => piDocument_framed) fun _ _ => rfl⟩
  unfold configureOpencode
  dsimp only
  rw [opencodePath_write]

section Counterexample

private def plainTools : Tools where
  parse _ := .ok (.object [])
  parseJson5 _ := .error "no JSON5"
  pretty _ := .ok "null"

private def rehearsal : ConfigureOptions :=
  { home := "/home/user", proxyUrl := "http://127.0.0.1:8787/v1", model := "gpt-test", directMode := false
    clientMode := none, sessionId := none, dryRun := true }

/-- A dry run succeeds and writes nothing. -/
theorem dry_run_writes_nothing :
    configureOpencode plainTools rehearsal {} (fun _ => none) = (fun _ => none, .ok ()) ∧
      ¬ ∀ (tools : Tools) (options : ConfigureOptions) (faults : Faults) (files : Files),
        OpencodeSafe tools options faults files ∧ PiSafe tools options faults files := by
  have hdry : configureOpencode plainTools rehearsal {} (fun _ => none) = (fun _ => none, .ok ()) := rfl
  refine ⟨hdry, fun hall => ?_⟩
  rcases (hall plainTools rehearsal {} (fun _ => none)).1 with ⟨error, h⟩ | ⟨old, new, text, hwritten⟩
  · cases congrArg Prod.snd (hdry.symm.trans h)
  · have hfiles := congrArg Prod.fst (hdry.symm.trans hwritten.wrote)
    have hpath : none = Files.write (fun _ => none) (opencodePath rehearsal (fun _ => none)) (text ++ "\n")
        (opencodePath rehearsal (fun _ => none)) := congrFun hfiles (opencodePath rehearsal (fun _ => none))
    rw [Files.write_self] at hpath
    cases hpath

end Counterexample
end Kaiion.Client
