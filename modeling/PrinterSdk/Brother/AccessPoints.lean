import PrinterSdk.Brother.Wifi
import PrinterSdk.Data.QuotedFields

/-!
# Access points in reach

A printer lists the access points that it sees, one in a line of comma-separated fields.
The name of a network is chosen by whoever runs it, and cannot reach into other fields.
-/

namespace PrinterSdk.Brother

open PrinterSdk.Data

/-- `AccessPoint`. -/
structure AccessPoint where
  ssid : Characters
  channel : UInt8
  power : Int16
  enterprise : Bool
  encrypted : Bool
  deriving DecidableEq, Repr

/-- `str::parse::<i16>`. -/
def parseI16 (text : Characters) : Option Int16 :=
  match text with
  | '-' :: digits => do
      let value ← digitsValue 10 digits
      if value ≤ 2 ^ 15 then some (Int16.ofInt (-(Int.ofNat value))) else none
  | '+' :: digits => do
      let value ← digitsValue 10 digits
      if value < 2 ^ 15 then some (Int16.ofNat value) else none
  | digits => do
      let value ← digitsValue 10 digits
      if value < 2 ^ 15 then some (Int16.ofNat value) else none

/-- The loop of `csv_fields`, with the fields that are pushed, the field that is read and
whether it is in quotes. -/
def csvLoop (fields : List Characters) (field : Characters) : Bool → Characters → List Characters
  | _, [] => fields ++ [field]
  | true, '"' :: '"' :: rest => csvLoop fields (field ++ ['"']) true rest
  | quoted, '"' :: rest => csvLoop fields field (!quoted) rest
  | false, ',' :: rest => csvLoop (fields ++ [field]) [] false rest
  | quoted, character :: rest => csvLoop fields (field ++ [character]) quoted rest

/-- `csv_fields`. -/
def csvFields (line : Characters) : List Characters := csvLoop [] [] false line

/-- What `parse_access_points` makes of the fields of a line. -/
def accessPoint (fields : List Characters) : Option AccessPoint :=
  match fields with
  | kind :: ssid :: _ :: _ :: channel :: power :: enterprise :: encrypted :: _ => do
      if trim kind ≠ "VAP".toList then none
      else
        let channel ← parseU8 10 (trim channel)
        let power ← parseI16 (trim power)
        some {
          ssid := decodeSsid (trim ssid)
          channel
          power
          enterprise := trim enterprise = ['3']
          encrypted := trim encrypted = ['2'] }
  | _ => none

/-- `parse_access_points`. -/
def parseAccessPoints (data : Bytes) : List AccessPoint :=
  (lines ((lossy data).filter (· ≠ '\x00'))).filterMap fun line => accessPoint (csvFields line)

/-! ## Fields -/

/-- The loop pushes the fields of a line with quotes and commas. -/
theorem csvLoop_eq (fields : List Characters) (field : Characters) (quoted : Bool)
    (line : Characters) :
    csvLoop fields field quoted line = fields ++ readFields '"' ',' quoted field line := by
  have different : ',' ≠ '"' := by decide
  induction fields, field, quoted, line using csvLoop.induct with
  | case1 fields field quoted =>
      cases quoted with
      | false => rfl
      | true => rfl
  | case2 fields field rest ih => rw [csvLoop, ih, readFields_double]
  | case3 fields field quoted rest single ih =>
      rw [csvLoop.eq_3 _ _ _ _ single, ih]
      cases quoted with
      | false =>
          rw [readFields_open]
          rfl
      | true =>
          have closes : rest.head? ≠ some '"' := by
            intro double
            obtain ⟨later, isQuote⟩ := List.head?_eq_some_iff.mp double
            exact single later rfl isQuote
          rw [readFields_close closes]
          rfl
  | case4 fields field rest ih =>
      rw [csvLoop, ih, readFields_comma different, List.append_assoc]
      rfl
  | case5 fields field quoted character rest double noQuote noComma ih =>
      rw [csvLoop.eq_5 _ _ _ _ _ noQuote double noComma, ih,
        readFields_item noQuote fun pair => noComma pair.2 pair.1]

/-- Fields come back from a line that writes them between commas, each in quotes or, when it
has neither quotes nor commas, as it is. -/
theorem csvFields_written {fields texts : List Characters}
    (written : List.Forall₂ (Written '"' ',') fields texts) (filled : fields ≠ []) :
    csvFields ([','].intercalate texts) = fields := by
  rw [csvFields, csvLoop_eq, List.nil_append]
  exact readFields_intercalate (by decide) written filled

/-- A name with a quote before a comma, in quotes, between an empty field and a plain one. -/
theorem csvFields_written_name :
    let name := "a\",\"b".toList
    List.Forall₂ (Written '"' ',') [[], name, ['6']] [[], quotedField '"' name, ['6']] ∧
      csvFields ",\"a\"\",\"\"b\",6".toList = [[], name, ['6']] := by
  intro name
  have written : List.Forall₂ (Written '"' ',') [[], name, ['6']]
      [[], quotedField '"' name, ['6']] :=
    .cons (.plain (by decide) (by decide))
      (.cons .quoted (.cons (.plain (by decide) (by decide)) .nil))
  exact ⟨written, csvFields_written written (by decide)⟩

/-! ## Access points -/

/-- Whatever the name of a network is, the line says the same about everything else. -/
theorem accessPoint_ssid (kind ssid other : Characters) (rest : List Characters) :
    (accessPoint (kind :: ssid :: rest)).map (fun point => { point with ssid := [] }) =
      (accessPoint (kind :: other :: rest)).map fun point => { point with ssid := [] } := by
  rcases rest with _ | ⟨_, _ | ⟨_, _ | ⟨channel, _ | ⟨power, _ | ⟨_, _ | ⟨_, _⟩⟩⟩⟩⟩⟩
  case cons.cons.cons.cons.cons.cons =>
    by_cases named : trim kind = "VAP".toList
    · simp only [accessPoint, named, ne_eq, not_true_eq_false, if_false]
      cases parseU8 10 (trim channel) with
      | none => rfl
      | some _ =>
          cases parseI16 (trim power) with
          | none => rfl
          | some _ => rfl
    · simp only [accessPoint, ne_eq, named, not_false_eq_true, if_true]
  all_goals rfl

end PrinterSdk.Brother
