import Mathlib
import TensorSchema.Proofs.Json.Fields
import TensorSchema.Snapshot.Schema

namespace TensorSchema

open Json

namespace DataType

lemma ofJson?_toJson (t : DataType) : ofJson? t.toJson = some t := by
  cases t <;> rfl

lemma wellFormed_toJson (t : DataType) : WellFormed t.toJson := wellFormed_text _

end DataType

namespace Sampling

lemma ofJson?_toJson (s : Sampling) : ofJson? s.toJson = some s := by
  cases s <;> rfl

lemma wellFormed_toJson (s : Sampling) : WellFormed s.toJson := wellFormed_text _

end Sampling

namespace Dimension

def floats (d : Dimension) : List Float := [d.lower, d.upper, d.spacing]

lemma ofJson?_toJson {d : Dimension} (h : Faithful d.floats) : ofJson? d.toJson = whenFinite d.floats d := by
  have hlower := float?_ofFloat (h d.lower (by simp [floats]))
  have hupper := float?_ofFloat (h d.upper (by simp [floats]))
  have hspacing := float?_ofFloat (h d.spacing (by simp [floats]))
  rw [ofJson?, toJson, fields?_record (by decide) rfl]
  simp only [List.map_cons, List.map_nil, DataType.ofJson?_toJson, Sampling.ofJson?_toJson, int64?_ofInt,
    hlower, hupper, hspacing, string?_text, Option.bind_eq_bind, Option.bind_some, Option.pure_def,
    whenFinite_bind_some, whenFinite_bind]
  rfl

lemma wellFormed_toJson (d : Dimension) : WellFormed d.toJson := by
  apply wellFormed_zip
  simp [wellFormed_text, wellFormed_ofFloat, wellFormed_ofInt, DataType.wellFormed_toJson,
    Sampling.wellFormed_toJson]

end Dimension

namespace Attribute

lemma ofJson?_toJson (a : Attribute) : ofJson? a.toJson = some a := by
  rw [ofJson?, toJson, fields?_record (by decide) rfl]
  simp [DataType.ofJson?_toJson, string?_text]

lemma wellFormed_toJson (a : Attribute) : WellFormed a.toJson := by
  apply wellFormed_zip
  simp [wellFormed_text, DataType.wellFormed_toJson]

end Attribute

namespace Element

def floats : Element → List Float
  | dim d => d.floats
  | attr _ => []

lemma ofJson?_toJson {e : Element} (h : Faithful e.floats) : ofJson? e.toJson = whenFinite e.floats e := by
  cases e with
  | dim d => simp [ofJson?, toJson, variant?_variant, Dimension.ofJson?_toJson h, map_whenFinite, floats]
  | attr a => simp [ofJson?, toJson, variant?_variant, Attribute.ofJson?_toJson a, floats, whenFinite]

lemma wellFormed_toJson (e : Element) : WellFormed e.toJson := by
  cases e with
  | dim d => exact wellFormed_variant _ d.wellFormed_toJson
  | attr a => exact wellFormed_variant _ a.wellFormed_toJson

end Element

namespace Role

lemma ofJson?_toJson (r : Role) : ofJson? r.toJson = some r := by
  rw [ofJson?, toJson, fields?_record (by decide) rfl]
  simp [string?_text, bool?]

lemma wellFormed_toJson (r : Role) : WellFormed r.toJson := by
  apply wellFormed_zip
  simp [wellFormed_text, WellFormed.bool]

end Role

namespace NominalType

lemma ofJson?_toJson (t : NominalType) : ofJson? t.toJson = some t := by
  rw [ofJson?, toJson, fields?_record (by decide) rfl]
  simp [string?_text, map?_ofMap t.roles Role.ofJson?_toJson]

lemma wellFormed_toJson (t : NominalType) : WellFormed t.toJson := by
  apply wellFormed_zip
  simp [wellFormed_text, wellFormed_ofMap t.roles Role.wellFormed_toJson]

end NominalType

namespace Schema

def floats (s : Schema) : List Float := s.elements.flatMap Element.floats

lemma nominalOfJson?_nominalToJson (t : Option NominalType) :
    nominalOfJson? (some (nominalToJson t)) = some t := by
  cases t with
  | none => rfl
  | some t =>
    change (NominalType.ofJson? t.toJson).map some = _
    rw [NominalType.ofJson?_toJson]
    rfl

lemma wellFormed_nominalToJson (t : Option NominalType) : WellFormed (nominalToJson t) := by
  cases t with
  | none => exact .null
  | some t => exact t.wellFormed_toJson

lemma ofJson?_toJson {s : Schema} (h : Faithful s.floats) : ofJson? s.toJson = whenFinite s.floats s := by
  have helements := list?_whenFinite fun e he => Element.ofJson?_toJson (faithful_flatMap h e he)
  have hroles := map?_ofMap s.roles string?_text
  rw [ofJson?, toJson, fields?_record (by decide) rfl]
  simp only [List.map_cons, List.map_nil, helements, hroles, nominalOfJson?_nominalToJson, string?_text,
    Option.bind_eq_bind, Option.bind_some, Option.pure_def, whenFinite_bind_some]
  rfl

lemma wellFormed_toJson (s : Schema) : WellFormed s.toJson := by
  apply wellFormed_zip
  simp [wellFormed_text, wellFormed_list s.elements Element.wellFormed_toJson, wellFormed_nominalToJson,
    wellFormed_ofMap s.roles wellFormed_text]

lemma load?_save {s : Schema} (h : Faithful s.floats) : load? s.save = whenFinite s.floats s := by
  rw [load?, save, parse?_render s.wellFormed_toJson, Option.bind_some, ofJson?_toJson h]

end Schema

end TensorSchema
