import AjarConnectors.Egress.Loaders
import AjarConnectors.Toml.Simple
import AjarConnectors.Up.Consumer

namespace UpProof

open UpModel UpModel.Consumer Toml ConfigModel TextModel

/-- The target connector accepts the written file and its config has what the manifest and the flag say. -/
def LoadsAsWritten (fromStr : String → Option Table) (m : Manifest) (opts : Options) (text : String) : Prop :=
  match opts.toTak with
  | some url =>
    ∃ cfg, TakModel.EgressConfig.load fromStr text = .ok cfg ∧ cfg.natsUrl = m.natsUrl ∧ cfg.egressSubject = takSubject ∧
      cfg.tak.url = url
  | none =>
    match opts.toHttp with
    | some url =>
      ∃ cfg format, EgressModel.LoadedConfig.load fromStr text = .ok cfg ∧ cfg.natsUrl = m.natsUrl ∧
        httpFormat (m.formats.getD []) = some format ∧ cfg.subject = httpSubject format ∧
        cfg.egressVerifyingKey = m.egressVerifyingKeyHex.getD "" ∧ cfg.url = url
    | none => True

/-! A verified egress key is hex, with white space around it. -/

theorem mem_trim {text : String} {c : Char} (member : c ∈ text.toList) : isWhitespace c = true ∨ c ∈ (trim text).toList := by
  rw [trim, String.toList_ofList, List.mem_reverse]
  have whole := List.takeWhile_append_dropWhile (p := isWhitespace) (l := text.toList)
  rw [← whole, List.mem_append] at member
  rcases member with early | late
  · exact Or.inl (List.mem_takeWhile_imp early)
  · rw [← List.mem_reverse, ← List.takeWhile_append_dropWhile (p := isWhitespace) (l := (text.toList.dropWhile _).reverse),
      List.mem_append] at late
    rcases late with trailing | kept
    · exact Or.inl (List.mem_takeWhile_imp trailing)
    · exact Or.inr kept

theorem hexDecode_digits : ∀ {text : List Char} {bytes : List UInt8}, hexDecode text = some bytes →
    ∀ c ∈ text, (hexValue c).isSome = true
  | [], _, _ => by simp
  | [_], _, decoded => by cases decoded
  | high :: low :: rest, _, decoded => by
    rw [hexDecode] at decoded
    split at decoded
    · rename_i h l more isHigh isLow isRest
      intro c member
      rcases List.mem_cons.mp member with rfl | member
      · rw [isHigh]
        rfl
      · rcases List.mem_cons.mp member with rfl | member
        · rw [isLow]
          rfl
        · exact hexDecode_digits isRest c member
    · cases decoded

theorem egress_key {validKey : List UInt8 → Bool} {m : Manifest} {found : String × List UInt8}
    (ok : egress validKey m = .ok found) : ∀ c ∈ (m.egressVerifyingKeyHex.getD "").toList, c ≠ '"' ∧ c ≠ '\\' := by
  unfold egress at ok
  split at ok
  · cases ok
  · split at ok
    · cases ok
    · rename_i keyHex given
      split at ok
      · cases ok
      · rename_i bytes decoded
        intro c member
        rw [given, Option.getD_some] at member
        rcases mem_trim member with space | inside
        · constructor <;> (rintro rfl; exact absurd space (by decide))
        · have digit := hexDecode_digits decoded c inside
          constructor <;> (rintro rfl; exact absurd digit (by decide))

/-! The TAK config names its subject under a key the loader does not read. -/

section Tak

variable (m : Manifest) (dir takUrl : String)

/-- What follows the heading of the TAK config. -/
def takTail : String :=
  "url = \"" ++ takUrl ++ "\"\n" ++ "# Enrolled with YOUR TAK Server (its owner issues these two):\n" ++
  "tls_cert = \"FILL-ME.client.pem\"\n" ++ "tls_key = \"FILL-ME.client.key\"\n" ++
  "# CA that signed the TAK Server's certificate (often your own PKI's):\n" ++
  "tls_ca = \"" ++ join dir (m.keys.caCertPath.getD "ca.crt") ++ "\"\n"

theorem takConfig_lines :
    takConfig m dir takUrl = line "nats_url" m.natsUrl ++ ("#" ++ " The CoT egress slug: only rendered CoT, not every format." ++
      "\n" ++ (line "subject" takSubject ++ (line "egress_verifying_key" (m.egressVerifyingKeyHex.getD "") ++
        ("\n" ++ (heading "tak" ++ takTail m dir takUrl))))) := by
  have nats : "nats_url = \"" = "nats_url" ++ " = \"" := by decide
  have comment : "# The CoT egress slug: only rendered CoT, not every format.\n" =
      "#" ++ " The CoT egress slug: only rendered CoT, not every format." ++ "\n" := by decide
  have subject : "subject = \"" = "subject" ++ " = \"" := by decide
  have key : "egress_verifying_key = \"" = "egress_verifying_key" ++ " = \"" := by decide
  have ending : "\"\n\n" = "\"\n" ++ "\n" := by decide
  have tak : "[tak]\n" = "[" ++ "tak" ++ "]\n" := by decide
  unfold takConfig line heading takTail
  rewrite [nats, comment, subject, key, ending, tak]
  simp only [String.append_assoc, -String.reduceAppend]

variable {m dir takUrl} {fromStr : String → Option Table}

theorem bare_natsUrl : Bare "nats_url" := ⟨by decide, List.all_eq_true.mp (by decide)⟩

theorem bare_subject : Bare "subject" := ⟨by decide, List.all_eq_true.mp (by decide)⟩

theorem bare_egressKey : Bare "egress_verifying_key" := ⟨by decide, List.all_eq_true.mp (by decide)⟩

theorem plain_takSubject : Plain takSubject := by
  unfold Plain takSubject
  apply List.all_eq_true.mp
  decide

theorem bare_tak : Bare "tak" := ⟨by decide, List.all_eq_true.mp (by decide)⟩

/-- No string stands under `egress_subject` in a written file whose `nats_url` is read as it was written. -/
theorem takConfig_no_subject (documented : Documented fromStr) {t : Table}
    (unquoted : ∀ c ∈ (m.egressVerifyingKeyHex.getD "").toList, c ≠ '"' ∧ c ≠ '\\')
    (read : fromStr (takConfig m dir takUrl) = some t) (nats : t.lookup "nats_url" = some (.string m.natsUrl)) (text : String) :
    t.lookup "egress_subject" ≠ some (.string text) := by
  rw [takConfig_lines] at read
  have comment : "#" ++ " The CoT egress slug: only rendered CoT, not every format." ++ "\n" =
      "# " ++ "The CoT egress slug: only rendered CoT, not every format.\n" := by decide
  have plain : Plain m.natsUrl := by
    rewrite [comment, String.append_assoc] at read
    exact documented.quoted bare_natsUrl read nats
  rcases documented.entry bare_natsUrl plain read with ⟨first, afterUrl, sameUrl⟩
  have afterComment := documented.comment (List.all_eq_true.mp (by decide)) afterUrl
  rcases documented.entry bare_subject plain_takSubject afterComment with ⟨second, afterSubject, sameSubject⟩
  by_cases plainKey : Plain (m.egressVerifyingKeyHex.getD "")
  · rcases documented.entry bare_egressKey plainKey afterSubject with ⟨third, afterKey, sameKey⟩
    have headed := documented.heading bare_tak (documented.blank afterKey)
    rw [sameUrl _ (by decide), sameSubject _ (by decide), sameKey _ (by decide)]
    exact headed _ text
  · rw [documented.control bare_egressKey unquoted plainKey] at afterSubject
    cases afterSubject

theorem required_eq {t : Table} {key text : String} (given : required t key = some text) :
    t.lookup key = some (.string text) := by
  rcases Option.bind_eq_some_iff.mp given with ⟨value, found, isString⟩
  cases value <;> cases isString
  exact found

theorem withDefault_eq {t : Table} {key standard text : String} (given : withDefault t key standard = some text)
    (unset : ∀ other, t.lookup key ≠ some (.string other)) : text = standard := by
  unfold withDefault at given
  split at given
  · exact (Option.some.inj given).symm
  · rename_i value found
    cases value <;> cases given
    exact absurd found (unset _)

theorem takConfig_standard_subject (documented : Documented fromStr)
    (unquoted : ∀ c ∈ (m.egressVerifyingKeyHex.getD "").toList, c ≠ '"' ∧ c ≠ '\\') {cfg : TakModel.EgressConfig}
    (loaded : TakModel.EgressConfig.load fromStr (takConfig m dir takUrl) = .ok cfg) (nats : cfg.natsUrl = m.natsUrl) :
    cfg.egressSubject = TakModel.defaultSubject := by
  unfold TakModel.EgressConfig.load at loaded
  split at loaded
  · cases loaded
  · rename_i cfg' found
    split at loaded
    · cases loaded
    · cases loaded
      rcases Option.bind_eq_some_iff.mp found with ⟨t, read, made⟩
      unfold TakModel.EgressConfig.ofTable at made
      split at made
      · rename_i natsUrl subject tak isNats isSubject _
        cases made
        subst nats
        exact withDefault_eq isSubject (takConfig_no_subject documented unquoted read (required_eq isNats))
      · cases made

end Tak

/-! The HTTP config ends in an empty mapping, which the loader refuses. -/

section Http

variable {m : Manifest} {url format : String} {fromStr : String → Option Table}

def httpFront (m : Manifest) (url format : String) : String :=
  "nats_url = \"" ++ m.natsUrl ++ "\"\n" ++ "subject = \"" ++ httpSubject format ++ "\"\n" ++
  "egress_verifying_key = \"" ++ m.egressVerifyingKeyHex.getD "" ++ "\"\n" ++ "unmapped = \"include\"\n\n" ++
  "[deliver]\n" ++ "url = \"" ++ url ++ "\"\n\n" ++
  "# Consumer-shaped field names go here; unmapped governed content is\n" ++
  "# delivered under `unmapped` either way (markings cannot be mapped away)."

theorem httpConfig_heading : httpConfig m url format = httpFront m url format ++ "\n" ++ heading "mapping" := by
  have comment : "# delivered under `unmapped` either way (markings cannot be mapped away).\n" =
      "# delivered under `unmapped` either way (markings cannot be mapped away)." ++ "\n" := by decide
  have mapping : "[mapping]\n" = "[" ++ "mapping" ++ "]\n" := by decide
  unfold httpConfig httpFront heading
  rewrite [comment, mapping]
  simp only [String.append_assoc, -String.reduceAppend]

theorem strings_eq_nil {t : Table} {entries : List (String × String)} (read : strings t = some entries)
    (unset : ∀ key text, t.lookup key ≠ some (.string text)) : entries = [] := by
  cases t with
  | nil =>
    cases read
    rfl
  | cons entry rest =>
    rcases entry with ⟨key, value⟩
    rw [strings] at read
    split at read
    · rename_i text more isString _
      cases value <;> cases isString
      exact absurd List.lookup_cons_self (unset key _)
    · cases read

theorem validate_mapping {cfg : EgressModel.Config} (valid : cfg.validate = .ok ()) : cfg.mapping.fields ≠ [] := by
  intro empty
  unfold EgressModel.Config.validate at valid
  simp only [empty] at valid
  split at valid
  · cases valid
  · split at valid
    · cases valid
    · cases valid

theorem httpConfig_never_loads (documented : Documented fromStr) (cfg : EgressModel.LoadedConfig) :
    EgressModel.LoadedConfig.load fromStr (httpConfig m url format) ≠ .ok cfg := by
  intro loaded
  unfold EgressModel.LoadedConfig.load at loaded
  split at loaded
  · cases loaded
  · rename_i cfg' found
    split at loaded
    · cases loaded
    · rename_i valid
      cases loaded
      rcases Option.bind_eq_some_iff.mp found with ⟨t, read, made⟩
      rw [httpConfig_heading] at read
      rcases documented.last ⟨by decide, List.all_eq_true.mp (by decide)⟩ read with ⟨own, isMapping, unset⟩
      unfold EgressModel.LoadedConfig.ofTable at made
      split at made
      · split at made
        · rename_i mapping _ _ _ _ _ _ _ ofMapping _ _ _
          cases made
          rw [isMapping] at ofMapping
          rcases Option.map_eq_some_iff.mp ofMapping with ⟨entries, isEntries, rfl⟩
          apply validate_mapping valid
          rw [strings_eq_nil isEntries unset]
          rfl
        · cases made
      · cases made

end Http

/-- No config that a run writes loads as it was written. -/
theorem written_config_never_loads_as_written (fromStr : String → Option Table) (documented : Documented fromStr)
    (validKey : List UInt8 → Bool) (m : Manifest) (dir : String) (opts : Options) (name text : String)
    (ran : deliver validKey m dir opts = .ok (.config name text)) : ¬ LoadsAsWritten fromStr m opts text := by
  unfold deliver at ran
  split at ran
  · cases ran
  · rename_i subject key found
    split at ran
    · rename_i tak toTak
      dsimp only at ran
      split at ran
      · cases ran
      · cases ran
        unfold LoadsAsWritten
        simp only [toTak]
        rintro ⟨cfg, loaded, nats, sameSubject, _⟩
        have standard := takConfig_standard_subject documented (egress_key found) loaded nats
        rw [sameSubject] at standard
        exact absurd standard (by decide)
    · rename_i toTak
      split at ran
      · rename_i url toHttp
        dsimp only at ran
        split at ran
        · cases ran
        · cases ran
          unfold LoadsAsWritten
          simp only [toTak, toHttp]
          rintro ⟨cfg, _, loaded, _⟩
          exact httpConfig_never_loads documented cfg loaded
      · cases ran

def opsC2 : Manifest where
  manifestVersion := "1.0"
  role := some "consumer"
  sourceId := "ops-c2"
  natsUrl := "nats://127.0.0.1:4222"
  egressSubject := some "ajar.egress.>"
  formats := some ["cot", "geojson"]
  egressVerifyingKeyHex := some "d75a980182b10ab7d54bfed3c964073a0ee172f3daa62325af021a68f707511a"

def toTak : Options where
  toTak := some "tls://tak.example:8089"

def toHttp : Options where
  toHttp := some "http://127.0.0.1:9/hook"

theorem tak_config_does_not_load_as_written :
    ¬ LoadsAsWritten simple opsC2 toTak (takConfig opsC2 "u" "tls://tak.example:8089") :=
  written_config_never_loads_as_written simple simple_documented (fun _ => true) opsC2 "u" toTak "ops-c2-tak-egress.toml"
    (takConfig opsC2 "u" "tls://tak.example:8089") (by rfl)

/-- The webhook's config is written, and its connector refuses it. -/
theorem http_config_is_refused :
    deliver (fun _ => true) opsC2 "u" toHttp =
        .ok (.config "ops-c2-http-egress.toml" (httpConfig opsC2 "http://127.0.0.1:9/hook" "geojson")) ∧
      ¬ LoadsAsWritten simple opsC2 toHttp (httpConfig opsC2 "http://127.0.0.1:9/hook" "geojson") := by
  apply And.intro (by rfl)
  rintro ⟨cfg, _, loaded, _⟩
  exact httpConfig_never_loads simple_documented cfg loaded

end UpProof
