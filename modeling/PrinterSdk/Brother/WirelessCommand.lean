import Mathlib.Data.List.Nodup
import PrinterSdk.Brother.SsidCodec
import PrinterSdk.Data.Delimited
import PrinterSdk.Data.Outcome

/-!
# Wireless settings as a command

`WirelessSettings::command` writes one line for each parameter, with its value between a
colon and a quote.  The SSID is written in hexadecimal.  The password is masked with a
repeating key and written as it comes, so a masked octet may be one that delimits lines and
values; whether it is depends on the octet and on where it stands.
-/

namespace PrinterSdk.Brother

open PrinterSdk.Data PrinterSdk.Discovery

/-! ## Settings -/

/-- `WirelessEncryption`. -/
inductive WirelessEncryption where
  | none
  | wep
  | tkip
  | aes
  | ckip
  | cmic
  | ckipCmic
  | tkipAes
  deriving DecidableEq, Repr

/-- `WirelessEncryption::code`. -/
def WirelessEncryption.code : WirelessEncryption → UInt8
  | .none => 1
  | .wep => 2
  | .tkip => 3
  | .aes => 4
  | .ckip => 5
  | .cmic => 6
  | .ckipCmic => 7
  | .tkipAes => 8

/-- `WirelessAuthentication`. -/
inductive WirelessAuthentication where
  | openSystem
  | sharedKey
  | wpaPsk
  | leap
  | eapFast
  | peap
  | eapTtls
  | eapTls
  | wpaOnly
  | wpa2Only
  deriving DecidableEq, Repr

namespace WirelessAuthentication

/-- `WirelessAuthentication::code`. -/
def code : WirelessAuthentication → UInt8
  | .openSystem => 1
  | .sharedKey => 2
  | .wpaPsk => 3
  | .leap => 7
  | .eapFast => 13
  | .peap => 15
  | .eapTtls => 16
  | .eapTls => 17
  | .wpaOnly => 18
  | .wpa2Only => 19

/-- `WirelessAuthentication::uses_psk`. -/
def usesPsk (authentication : WirelessAuthentication) : Bool :=
  authentication = .wpaPsk || authentication = .wpaOnly || authentication = .wpa2Only

end WirelessAuthentication

/-- The errors of `WirelessSettings::command`. -/
inductive WirelessError where
  | emptySsid
  | missingPassword
  | invalidOpenSecurity
  deriving DecidableEq, Repr

/-- `WirelessSettings`. -/
structure WirelessSettings where
  ssid : String
  password : String
  encryption : WirelessEncryption
  authentication : WirelessAuthentication
  infrastructure : Bool
  wirelessDirect : Bool
  reboot : Bool
  deriving DecidableEq, Repr

/-! ## The command -/

/-- `REBOOT_COMMAND`. -/
def rebootCommand : Bytes :=
  [0x1b, 0x69, 0x58, 0x2a, 0x31, 0x03, 0, 0x01, 0x2e, 0, 0, 0, 0x2c, 0]

/-- `PASSWORD_KEY`. -/
def passwordKey : Bytes :=
  [0x0d, 0xae, 0xe4, 0xa1, 0x8b, 0x7f, 0x26, 0x5e, 0x72, 0x5b, 0x17, 0x7a, 0x71, 0xcd, 0xec, 0x4d]

/-- The octet of the key that masks the octet of a password at an index. -/
def keyAt (index : Nat) : UInt8 := passwordKey.getD (index % passwordKey.length) 0

/-- `xor_password`. -/
def xorPassword (value : Bytes) : Bytes := value.mapIdx fun index byte => byte ^^^ keyAt index

/-- `u8::to_string` as octets. -/
def decimalBytes (value : UInt8) : Bytes := asBytes (toString value.toNat)

/-- What precedes the OID of a parameter. -/
def parameterCommand : Bytes := asBytes "@PJL DEFAULT OBJBRNET="

/-- What the loop of `WirelessSettings::command` writes for a parameter, without the line break. -/
def parameterBody (parameter : String × Bytes) : Bytes :=
  parameterCommand ++ quoteMark :: (asBytes parameter.1 ++ 0x3a :: (parameter.2 ++ [quoteMark]))

namespace WirelessSettings

variable (settings : WirelessSettings)

/-- The parameter of the password, when one is sent. -/
def passwordParameters : List (String × Bytes) :=
  if settings.authentication.usesPsk then
    [("99458890", xorPassword (asBytes settings.password))]
  else if settings.encryption = .wep then
    [("99458889.1", xorPassword (asBytes settings.password))]
  else
    []

/-- The parameters of `WirelessSettings::command`. -/
def parameters : List (String × Bytes) :=
  [("458867", asBytes "0"), ("458878", asBytes "1"), ("458877", encodeSsid settings.ssid)] ++
  settings.passwordParameters ++
  [("458880", decimalBytes settings.encryption.code),
    ("458881", decimalBytes settings.authentication.code),
    ("459138.2", decimalBytes settings.infrastructure.toUInt8),
    ("459138.3", decimalBytes settings.wirelessDirect.toUInt8),
    ("458865", asBytes "1")]

/-- What `WirelessSettings::command` writes. -/
def output : Bytes :=
  pjlHeader ++ joinLines 0x0d 0x0a (settings.parameters.map parameterBody) ++ pjlFooter ++
    if settings.reboot then rebootCommand else []

/-- `WirelessSettings::command`. -/
def command : Except WirelessError Bytes := do
  refuseIf (settings.ssid = "") .emptySsid
  refuseIf (settings.authentication ≠ .openSystem ∧ settings.password = "") .missingPassword
  refuseIf (settings.authentication = .openSystem ∧ settings.encryption ≠ .none)
    .invalidOpenSecurity
  return settings.output

end WirelessSettings

/-! ## Reading a command back -/

/-- The parameter of a line: what is between its quotes, split at the first colon. -/
def readParameter (line : Bytes) : Option (Bytes × Bytes) :=
  match line.splitOn quoteMark with
  | [opening, setting, []] =>
      if opening = parameterCommand then splitOnce 0x3a setting else none
  | _ => none

/-- The parameters that the lines of a command set. -/
def recovered (output : Bytes) : List (Bytes × Bytes) :=
  (splitOnPair 0x0d 0x0a output).filterMap readParameter

/-- The octets that delimit lines, values and commands. -/
def delimiters : Bytes := [quoteMark, 0x0d, 0x0a, 0x1b]

/-- The octets of a value, none of which delimits anything. -/
def Clean (value : Bytes) : Prop := ∀ byte ∈ value, byte ∉ delimiters

/-- The OIDs a password is sent under. -/
def passwordOids : List String := ["99458890", "99458889.1"]

/-- A command is framed: its parts follow each other, and a reader of its lines and quotes finds
the parameters that were written, with the SSID and the password in them. -/
structure Framed (settings : WirelessSettings) (output : Bytes) : Prop where
  layout : output = pjlHeader ++ joinLines 0x0d 0x0a (settings.parameters.map parameterBody) ++
    pjlFooter ++ if settings.reboot then rebootCommand else []
  parameters : recovered output = settings.parameters.map fun parameter =>
    (asBytes parameter.1, parameter.2)
  ssid : ∀ value, (asBytes "458877", value) ∈ recovered output →
    decodeSsid (lossy value) = settings.ssid.toList
  password : ∀ oid ∈ passwordOids, ∀ value, (asBytes oid, value) ∈ recovered output →
    xorPassword value = asBytes settings.password
  clean : ∀ parameter ∈ settings.parameters, Clean parameter.2

/-- A password is sent. -/
def WirelessSettings.SendsPassword (settings : WirelessSettings) : Prop :=
  settings.authentication.usesPsk = true ∨ settings.encryption = .wep

/-- No octet of the password is one that its place in the key turns into a delimiter. -/
def PasswordClear (password : Bytes) : Prop :=
  ∀ index byte, password[index]? = some byte → ∀ delimiter ∈ delimiters,
    byte ≠ delimiter ^^^ keyAt index

/-! ## Values without delimiters -/

theorem clean_plain {value : Bytes} (plain : ∀ byte ∈ value, isPlain byte) : Clean value := by
  intro byte member delimits
  have least := (plain byte member).1
  simp only [delimiters, List.mem_cons, List.not_mem_nil, or_false] at delimits
  rcases delimits with rfl | rfl | rfl | rfl
  all_goals exact absurd least (by decide)

theorem xor_twice (byte key : UInt8) : byte ^^^ key ^^^ key = byte := by
  rw [UInt8.xor_assoc, UInt8.xor_self, UInt8.xor_zero]

/-- Masking is undone by masking again. -/
theorem xorPassword_xorPassword (value : Bytes) : xorPassword (xorPassword value) = value := by
  apply List.ext_getElem?
  intro index
  rw [xorPassword, List.getElem?_mapIdx, xorPassword, List.getElem?_mapIdx]
  cases value[index]? with
  | none => rfl
  | some byte => exact congrArg some (xor_twice _ _)

/-- A masked password has no delimiter exactly when its octets keep away from those that become
one. -/
theorem clean_xorPassword (password : Bytes) :
    Clean (xorPassword password) ↔ PasswordClear password := by
  constructor
  · intro clean index byte located delimiter delimits same
    have masked : (xorPassword password)[index]? = some delimiter := by
      rw [xorPassword, List.getElem?_mapIdx, located, same]
      exact congrArg some (xor_twice _ _)
    exact clean delimiter (List.mem_of_getElem? masked) delimits
  · intro clear byte member delimits
    obtain ⟨index, located⟩ := List.getElem?_of_mem member
    rw [xorPassword, List.getElem?_mapIdx, Option.map_eq_some_iff] at located
    obtain ⟨origin, here, masked⟩ := located
    apply clear index origin here byte delimits
    rw [← masked]
    exact (xor_twice _ _).symm

theorem clean_of_all {value : Bytes}
    (all : value.all (fun byte => decide (isPlain byte)) = true) : Clean value :=
  clean_plain (isPlain_of_all all)

theorem clean_decimalBytes (encryption : WirelessEncryption)
    (authentication : WirelessAuthentication) (switch : Bool) :
    Clean (decimalBytes encryption.code) ∧ Clean (decimalBytes authentication.code) ∧
      Clean (decimalBytes switch.toUInt8) := by
  refine ⟨?_, ?_, ?_⟩
  · apply clean_of_all
    cases encryption <;> decide +kernel
  · apply clean_of_all
    cases authentication <;> decide +kernel
  · apply clean_of_all
    cases switch <;> decide +kernel

namespace WirelessSettings

variable {settings : WirelessSettings}

theorem passwordParameters_sent (sent : settings.SendsPassword) :
    ∃ oid ∈ passwordOids,
      settings.passwordParameters = [(oid, xorPassword (asBytes settings.password))] := by
  rw [passwordParameters]
  split
  · exact ⟨"99458890", by decide, rfl⟩
  · next keyless =>
      have wep : settings.encryption = .wep := sent.resolve_left keyless
      rw [if_pos wep]
      exact ⟨"99458889.1", by decide, rfl⟩

theorem passwordParameters_unsent (unsent : ¬settings.SendsPassword) :
    settings.passwordParameters = [] := by
  obtain ⟨keyless, other⟩ := not_or.mp unsent
  rw [passwordParameters, if_neg keyless, if_neg other]

/-- What the password's parameter is. -/
theorem mem_passwordParameters {parameter : String × Bytes}
    (member : parameter ∈ settings.passwordParameters) :
    settings.SendsPassword ∧ parameter.1 ∈ passwordOids ∧
      parameter.2 = xorPassword (asBytes settings.password) := by
  by_cases sent : settings.SendsPassword
  · obtain ⟨oid, known, only⟩ := passwordParameters_sent sent
    rw [only, List.mem_singleton] at member
    rw [member]
    exact ⟨sent, known, rfl⟩
  · rw [passwordParameters_unsent sent] at member
    cases member

/-- The OIDs beside those of a password. -/
def plainOids : List String :=
  ["458867", "458878", "458877", "458880", "458881", "459138.2", "459138.3", "458865"]

/-- The parameters beside that of a password. -/
def plainParameters (settings : WirelessSettings) : List (String × Bytes) :=
  plainOids.zip [asBytes "0", asBytes "1", encodeSsid settings.ssid,
    decimalBytes settings.encryption.code, decimalBytes settings.authentication.code,
    decimalBytes settings.infrastructure.toUInt8, decimalBytes settings.wirelessDirect.toUInt8,
    asBytes "1"]

theorem mem_parameters {parameter : String × Bytes} :
    parameter ∈ settings.parameters ↔
      parameter ∈ settings.plainParameters ∨ parameter ∈ settings.passwordParameters := by
  simp only [parameters, plainParameters, plainOids, List.zip_cons_cons, List.zip_nil_left,
    List.mem_append, List.mem_cons, List.not_mem_nil, or_false]
  grind

theorem map_plainParameters (settings : WirelessSettings) :
    settings.plainParameters.map Prod.fst = plainOids := rfl

theorem mem_plainOids {parameter : String × Bytes}
    (member : parameter ∈ settings.plainParameters) : parameter.1 ∈ plainOids := by
  rw [← settings.map_plainParameters]
  exact List.mem_map_of_mem member

/-- No parameter but that of the password can bring a delimiter. -/
theorem clean_plainParameters (settings : WirelessSettings) :
    ∀ parameter ∈ settings.plainParameters, Clean parameter.2 := by
  obtain ⟨encryption, authentication, infrastructure⟩ :=
    clean_decimalBytes settings.encryption settings.authentication settings.infrastructure
  have direct := (clean_decimalBytes .none .openSystem settings.wirelessDirect).2.2
  have zero : Clean (asBytes "0") := clean_of_all (by decide +kernel)
  have one : Clean (asBytes "1") := clean_of_all (by decide +kernel)
  have ssid : Clean (encodeSsid settings.ssid) := clean_plain (plain_encodeSsid settings.ssid)
  simp only [plainParameters, plainOids, List.zip_cons_cons, List.zip_nil_left,
    List.forall_mem_cons]
  exact ⟨zero, one, ssid, encryption, authentication, infrastructure, direct, one, nofun⟩

/-- The values are clean exactly when the masked password is, where one is sent. -/
theorem clean_parameters (settings : WirelessSettings) :
    (∀ parameter ∈ settings.parameters, Clean parameter.2) ↔
      (settings.SendsPassword → PasswordClear (asBytes settings.password)) := by
  constructor
  · intro clean sent
    obtain ⟨oid, _, only⟩ := passwordParameters_sent sent
    apply (clean_xorPassword _).mp
    apply clean (oid, xorPassword (asBytes settings.password))
    apply mem_parameters.mpr
    rw [only]
    exact .inr List.mem_cons_self
  · intro clear parameter member
    cases mem_parameters.mp member with
    | inl plain => exact settings.clean_plainParameters parameter plain
    | inr password =>
        obtain ⟨sent, _, masked⟩ := mem_passwordParameters password
        rw [masked]
        exact (clean_xorPassword _).mpr (clear sent)

/-- The OIDs of a command. -/
def oids : List String := plainOids ++ passwordOids

theorem mem_oids {parameter : String × Bytes} (member : parameter ∈ settings.parameters) :
    parameter.1 ∈ oids := by
  apply List.mem_append.mpr
  cases mem_parameters.mp member with
  | inl plain => exact .inl (mem_plainOids plain)
  | inr password => exact .inr (mem_passwordParameters password).2.1

theorem plainOids_apart : ∀ oid ∈ plainOids, oid ∉ passwordOids := by decide

theorem mem_ssid (settings : WirelessSettings) :
    ("458877", encodeSsid settings.ssid) ∈ settings.plainParameters :=
  .tail _ (.tail _ (.head _))

/-- The value of the SSID. -/
theorem ssid_value {value : Bytes} (member : ("458877", value) ∈ settings.parameters) :
    value = encodeSsid settings.ssid := by
  have known : "458877" ∈ plainOids := by decide
  cases mem_parameters.mp member with
  | inl plain =>
      have distinct : (settings.plainParameters.map Prod.fst).Nodup := by
        rw [map_plainParameters]
        decide
      have same := List.inj_on_of_nodup_map distinct plain settings.mem_ssid rfl
      exact congrArg Prod.snd same
  | inr password =>
      exact absurd (mem_passwordParameters password).2.1 (plainOids_apart _ known)

/-- The value of the password. -/
theorem password_value {oid : String} {value : Bytes} (known : oid ∈ passwordOids)
    (member : (oid, value) ∈ settings.parameters) :
    value = xorPassword (asBytes settings.password) := by
  cases mem_parameters.mp member with
  | inl plain => exact absurd known (plainOids_apart _ (mem_plainOids plain))
  | inr password => exact (mem_passwordParameters password).2.2

end WirelessSettings

/-! ## The reader finds what was written -/

theorem Clean.free {value : Bytes} (clean : Clean value) {delimiter : UInt8}
    (delimits : delimiter ∈ delimiters) : delimiter ∉ value :=
  fun member => clean delimiter member delimits

/-- A parameter with a clean value is read back. -/
theorem readParameter_body {parameter : String × Bytes}
    (quoteless : quoteMark ∉ asBytes parameter.1) (colonless : 0x3a ∉ asBytes parameter.1)
    (clean : Clean parameter.2) :
    readParameter (parameterBody parameter) = some (asBytes parameter.1, parameter.2) := by
  have away {bytes : Bytes} (free : quoteMark ∉ bytes) : ∀ byte ∈ bytes, (byte == quoteMark) = false :=
    fun byte member => beq_eq_false_iff_ne.mpr fun same => free (same ▸ member)
  have opening : ∀ byte ∈ parameterCommand, (byte == quoteMark) = false := by
    intro byte member
    have every : parameterCommand.all (fun byte => !(byte == quoteMark)) = true := by
      decide +kernel
    simpa using List.all_eq_true.mp every byte member
  have inner : quoteMark ∉ asBytes parameter.1 ++ 0x3a :: parameter.2 := by
    intro member
    rcases List.mem_append.mp member with oid | rest
    · exact quoteless oid
    · cases rest with
      | tail _ value => exact clean.free (by decide) value
  have parts : (parameterBody parameter).splitOn quoteMark =
      [parameterCommand, asBytes parameter.1 ++ 0x3a :: parameter.2, []] := by
    have first := List.splitOnP_append_cons_of_forall_mem opening quoteMark rfl
      ((asBytes parameter.1 ++ 0x3a :: parameter.2) ++ [quoteMark])
    have second := List.splitOnP_append_cons_of_forall_mem (away inner) quoteMark rfl []
    rw [second] at first
    rw [parameterBody, List.splitOn]
    simpa using first
  rw [readParameter, parts]
  dsimp only
  rw [if_pos rfl, splitOnce_append colonless]

theorem oid_octets : ∀ oid ∈ WirelessSettings.oids,
    quoteMark ∉ asBytes oid ∧ 0x3a ∉ asBytes oid ∧ 0x0d ∉ asBytes oid := by
  have every : WirelessSettings.oids.all (fun oid => !(asBytes oid).contains quoteMark &&
      !(asBytes oid).contains 0x3a && !(asBytes oid).contains 0x0d) = true := by
    decide +kernel
  intro oid member
  simpa [and_assoc] using List.all_eq_true.mp every oid member

/-- A line with a clean value has no line break of its own. -/
theorem lineless_body {parameter : String × Bytes} (lineless : 0x0d ∉ asBytes parameter.1)
    (clean : Clean parameter.2) : 0x0d ∉ parameterBody parameter := by
  have opening : (0x0d : UInt8) ∉ parameterCommand := by decide +kernel
  have quote : (0x0d : UInt8) ≠ quoteMark := by decide
  have colon : (0x0d : UInt8) ≠ 0x3a := by decide
  have value : 0x0d ∉ parameter.2 := clean.free (by decide)
  simp [parameterBody, opening, quote, colon, lineless, value]

/-- Lines and quotes give back the parameters of a command whose values are clean. -/
theorem recovered_output {settings : WirelessSettings}
    (clean : ∀ parameter ∈ settings.parameters, Clean parameter.2) :
    recovered settings.output = settings.parameters.map fun parameter =>
      (asBytes parameter.1, parameter.2) := by
  have header : pjlHeader = joinLines 0x0d 0x0a [asBytes "\x1b%-12345X@PJL"] := by decide +kernel
  have opening : 0x0d ∉ asBytes "\x1b%-12345X@PJL" := by decide +kernel
  have lines : ∀ line ∈ asBytes "\x1b%-12345X@PJL" :: settings.parameters.map parameterBody,
      0x0d ∉ line := by
    intro line member
    cases List.mem_cons.mp member with
    | inl first => exact first ▸ opening
    | inr later =>
        obtain ⟨parameter, inside, rfl⟩ := List.mem_map.mp later
        exact lineless_body (oid_octets _ (WirelessSettings.mem_oids inside)).2.2 (clean _ inside)
  have tail : ∀ reboot : Bool, 0x0d ∉ pjlFooter ++ (if reboot then rebootCommand else []) ∧
      readParameter (pjlFooter ++ (if reboot then rebootCommand else [])) = none := by
    decide +kernel
  have whole : settings.output =
      joinLines 0x0d 0x0a
        (asBytes "\x1b%-12345X@PJL" :: settings.parameters.map parameterBody) ++
      (pjlFooter ++ if settings.reboot then rebootCommand else []) := by
    rw [WirelessSettings.output, header]
    simp [joinLines]
  have silent : readParameter (asBytes "\x1b%-12345X@PJL") = none := by decide +kernel
  have read : (settings.parameters.map parameterBody).filterMap readParameter =
      settings.parameters.map fun parameter => (asBytes parameter.1, parameter.2) := by
    rw [List.filterMap_map, ← List.filterMap_eq_map]
    apply List.filterMap_congr
    intro parameter inside
    obtain ⟨quoteless, colonless, _⟩ := oid_octets _ (WirelessSettings.mem_oids inside)
    exact readParameter_body quoteless colonless (clean _ inside)
  rw [recovered, whole, splitOnPair_joinLines lines (tail settings.reboot).1, List.cons_append,
    List.filterMap_cons_none silent, List.filterMap_append, read,
    List.filterMap_cons_none (tail settings.reboot).2, List.filterMap_nil, List.append_nil]

theorem asBytes_injective {left right : String} (same : asBytes left = asBytes right) :
    left = right := by
  have decoded := fromUtf8_asBytes left
  rw [same, fromUtf8_asBytes right] at decoded
  exact (Option.some.inj decoded).symm

/-- The settings that are accepted have an SSID. -/
theorem command_eq_ok {settings : WirelessSettings} {output : Bytes}
    (accepted : settings.command = .ok output) : settings.ssid ≠ "" ∧ output = settings.output := by
  obtain ⟨_, named, accepted⟩ := (except_bind_eq_ok _ _ _).mp accepted
  obtain ⟨_, _, accepted⟩ := (except_bind_eq_ok _ _ _).mp accepted
  obtain ⟨_, _, accepted⟩ := (except_bind_eq_ok _ _ _).mp accepted
  exact ⟨(refuseIf_eq_ok _ _ _).mp named, ((except_pure_eq_ok _ _).mp accepted).symm⟩

/-- A command is framed exactly when the SSID has more than one octet and no octet of a password
that is sent is masked into a delimiter. -/
theorem command_framed_iff (settings : WirelessSettings) (output : Bytes)
    (accepted : settings.command = .ok output) :
    Framed settings output ↔ (asBytes settings.ssid).length ≠ 1 ∧
      (settings.SendsPassword → PasswordClear (asBytes settings.password)) := by
  obtain ⟨named, rfl⟩ := command_eq_ok accepted
  constructor
  · intro framed
    refine ⟨?_, (settings.clean_parameters).mp framed.clean⟩
    apply (decodeSsid_encoded named).mp
    rw [← lossy_encodeSsid]
    apply framed.ssid
    rw [framed.parameters]
    apply List.mem_map.mpr
    exact ⟨_, WirelessSettings.mem_parameters.mpr (.inl settings.mem_ssid), rfl⟩
  · rintro ⟨several, clear⟩
    have clean := (settings.clean_parameters).mpr clear
    have found := recovered_output clean
    have origin : ∀ oid value, (asBytes oid, value) ∈ recovered settings.output →
        (oid, value) ∈ settings.parameters := by
      intro oid value member
      rw [found] at member
      obtain ⟨⟨other, kept⟩, inside, same⟩ := List.mem_map.mp member
      obtain ⟨named, rfl⟩ := Prod.mk.inj same
      rw [← asBytes_injective named]
      exact inside
    refine ⟨rfl, found, ?_, ?_, clean⟩
    · intro value member
      rw [WirelessSettings.ssid_value (origin _ value member), lossy_encodeSsid]
      exact (decodeSsid_encoded named).mpr several
    · intro oid known value member
      rw [WirelessSettings.password_value known (origin oid value member)]
      exact xorPassword_xorPassword _

/-- Settings of a network whose name has two octets for one letter. -/
def sampleSettings : WirelessSettings where
  ssid := "Café"
  password := "secret"
  encryption := .tkipAes
  authentication := .wpaPsk
  infrastructure := true
  wirelessDirect := false
  reboot := false

theorem command_framed_cafe : Framed sampleSettings sampleSettings.output := by
  apply (command_framed_iff sampleSettings sampleSettings.output (by decide +kernel)).mpr
  refine ⟨by decide +kernel, fun _ => (clean_xorPassword _).mp ?_⟩
  have apart : (xorPassword (asBytes sampleSettings.password)).any (delimiters.contains ·) =
      false := by
    decide +kernel
  intro byte member delimits
  exact List.any_eq_false.mp apart byte member (List.contains_iff_mem.mpr delimits)

/-- Settings with a password that begins with a slash, which is masked into a quote. -/
def slashSettings : WirelessSettings where
  ssid := "Lab"
  password := "/secret12"
  encryption := .aes
  authentication := .wpa2Only
  infrastructure := true
  wirelessDirect := false
  reboot := true

theorem slash_password_breaks_line :
    slashSettings.command = .ok slashSettings.output ∧
      (recovered slashSettings.output).length + 1 = slashSettings.parameters.length ∧
      ¬Framed slashSettings slashSettings.output := by
  have lost : (recovered slashSettings.output).length + 1 = slashSettings.parameters.length := by
    decide +kernel
  refine ⟨by decide +kernel, lost, ?_⟩
  intro framed
  rw [framed.parameters, List.length_map] at lost
  exact Nat.succ_ne_self _ lost

end PrinterSdk.Brother
