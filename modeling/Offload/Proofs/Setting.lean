import Offload.Proofs.Json.Reading
import Offload.Setting

namespace Offload

namespace RawJson

theorem int?_ofInt64 (n : Int64) :
    (number (.ofInt n.toInt)).int?.bind int64? = some n := by
  have hlow := n.le_toInt
  have hhigh := n.toInt_lt
  have hread := Numeral.int?_ofInt (n := n.toInt) (by omega) (by omega)
  rw [int?, hread, Option.bind_some, int64?_eq_some_iff]

theorem int?_ofUInt32 (n : UInt32) :
    (number (.ofInt n.toNat)).int?.bind uint32? = some n := by
  have hhigh := n.toNat_lt
  have hread := Numeral.int?_ofInt (n := n.toNat) (by omega) (by omega)
  rw [int?, hread, Option.bind_some, uint32?_eq_some_iff]

theorem string?_ofText (text : String) : (string (Piece.ofText text)).string? = some text := by
  rw [string?, Piece.text?_ofText, Option.map_some, String.ofList_toList]

theorem rawItems?_strings (texts : List String) :
    Json.rawItems? (texts.map .string) = some (texts.map fun text => string (Piece.ofText text)) := by
  induction texts with
  | nil => rfl
  | cons text rest ih =>
    simp only [List.map_cons, Json.rawItems?, Json.raw?, ih, Option.bind_eq_bind, Option.bind_some,
      Option.pure_def]

theorem strings?_ofTexts (texts : List String) :
    (array (texts.map fun text => string (Piece.ofText text))).strings? = some texts := by
  rw [strings?]
  induction texts with
  | nil => rfl
  | cons text rest ih =>
    simp only [List.map_cons, List.mapM_cons, string?_ofText, ih, Option.bind_eq_bind,
      Option.bind_some, Option.pure_def]

end RawJson

namespace Interval

theorem ofParts?_words (months : UInt32) (millis : Int64) :
    ofParts? (.number (.ofInt months.toNat)) (.number (.ofInt millis.toInt)) =
      some ⟨months, millis⟩ := by
  obtain ⟨count, hcount, hmonths⟩ := Option.bind_eq_some_iff.mp (RawJson.int?_ofUInt32 months)
  obtain ⟨size, hsize, hmillis⟩ := Option.bind_eq_some_iff.mp (RawJson.int?_ofInt64 millis)
  simp only [ofParts?, hcount, hmonths, hsize, hmillis, Option.bind_eq_bind, Option.bind_some,
    Option.pure_def]

theorem exists_raw (i : Interval) : ∃ raw, i.toJson.raw? = some raw ∧ ofRaw? raw = some i := by
  refine ⟨_, rfl, ?_⟩
  have hnames : RawJson.namedMembers?
      [(Piece.ofText "months", .number (.ofInt i.months.toNat)),
        (Piece.ofText "millis", .number (.ofInt i.millis.toInt))] =
      some [("months", .number (.ofInt i.months.toNat)),
        ("millis", .number (.ofInt i.millis.toInt))] := by
    simp only [RawJson.namedMembers?, List.mapM_cons, List.mapM_nil, Piece.text?_ofText,
      Option.map_some, String.ofList_toList, Option.bind_eq_bind, Option.bind_some, Option.pure_def]
  rw [ofRaw?, hnames]
  exact ofParts?_words i.months i.millis

end Interval

namespace Setting

/-- Settings with a value that is neither a double nor a moment. -/
def IsDiscrete : Setting → Prop
  | .number _ => False
  | .moment _ => False
  | _ => True

theorem ofRaw?_tagged (tag : String) (value : RawJson) :
    ofRaw? (.object [(Piece.ofText tag, value)]) = ofTagged? tag value := by
  rw [ofRaw?, Piece.text?_ofText, Option.bind_some, String.ofList_toList]

/-- An object with one member has the structure of the value under its name. -/
theorem raw?_tagged (tag : String) {value : Json} {raw : RawJson} (h : value.raw? = some raw) :
    (Json.object [(tag, value)]).raw? = some (.object [(Piece.ofText tag, raw)]) := by
  simp only [Json.raw?, Json.rawMembers?, h, Option.bind_eq_bind, Option.bind_some, Option.pure_def,
    Option.map_some]

theorem exists_raw {s : Setting} (h : s.IsDiscrete) :
    ∃ raw, s.toJson.raw? = some raw ∧ ofRaw? raw = some s := by
  cases s with
  | number x => cases h
  | moment m => cases h
  | integer n =>
    refine ⟨_, raw?_tagged "integer" rfl, ?_⟩
    rw [ofRaw?_tagged, ofTagged?, RawJson.int?_ofInt64, Option.map_some]
  | boolean b =>
    refine ⟨_, raw?_tagged "boolean" rfl, ?_⟩
    rw [ofRaw?_tagged, ofTagged?, RawJson.bool?, Option.map_some]
  | string text =>
    refine ⟨_, raw?_tagged "string" rfl, ?_⟩
    rw [ofRaw?_tagged, ofTagged?, RawJson.string?_ofText, Option.map_some]
  | fields names =>
    have hraw : (Json.array (names.map .string)).raw? =
        some (.array (names.map fun name => .string (Piece.ofText name))) := by
      rw [Json.raw?, RawJson.rawItems?_strings, Option.map_some]
    refine ⟨_, raw?_tagged "fields" hraw, ?_⟩
    rw [ofRaw?_tagged, ofTagged?, RawJson.strings?_ofTexts, Option.map_some]
  | interval i =>
    obtain ⟨raw, hraw, hread⟩ := i.exists_raw
    refine ⟨_, raw?_tagged "interval" hraw, ?_⟩
    rw [ofRaw?_tagged, ofTagged?, hread, Option.map_some]
  | dynamic source =>
    refine ⟨_, raw?_tagged "dynamic" rfl, ?_⟩
    rw [ofRaw?_tagged, ofTagged?, RawJson.string?_ofText, Option.map_some]

/-- A setting that is neither a double nor a moment is read back from its JSON text, and so is an interval. -/
theorem ofJsonText?_text :
    (∀ s : Setting, s.IsDiscrete → ofJsonText? s.toJson.text = some s) ∧
      ∀ i : Interval, Interval.ofJsonText? i.toJson.text = some i := by
  refine ⟨fun s h => ?_, fun i => ?_⟩
  · obtain ⟨raw, hraw, hread⟩ := exists_raw h
    rw [ofJsonText?, Json.parse?_text hraw, Option.bind_some, hread]
  · obtain ⟨raw, hraw, hread⟩ := i.exists_raw
    rw [Interval.ofJsonText?, Json.parse?_text hraw, Option.bind_some, hread]

/-- Both styles of escapes, names that look like JSON, and the ends of the ranges. -/
theorem ofJsonText?_text_extremes :
    ofJsonText? "\x7b\"string\":\"\\\"\\\\\\n\\u001f/\u00e9\"\x7d" =
        some (.string "\"\\\n\x1f/\u00e9") ∧
      ofJsonText? "\x7b\"fields\":[\"\",\"a\\\",\\\"b\"]\x7d" = some (.fields ["", "a\",\"b"]) ∧
      ofJsonText? "\x7b\"integer\":-9223372036854775808\x7d" =
        some (.integer (-9223372036854775808)) ∧
      Interval.ofJsonText? "\x7b\"months\":4294967295,\"millis\":9223372036854775807\x7d" =
        some ⟨4294967295, 9223372036854775807⟩ :=
  ⟨ofJsonText?_text.1 (.string "\"\\\n\x1f/\u00e9") trivial,
    ofJsonText?_text.1 (.fields ["", "a\",\"b"]) trivial,
    ofJsonText?_text.1 (.integer (-9223372036854775808)) trivial,
    ofJsonText?_text.2 ⟨4294967295, 9223372036854775807⟩⟩

end Setting

end Offload
