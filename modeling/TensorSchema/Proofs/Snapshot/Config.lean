import Mathlib
import TensorSchema.Proofs.Json.Fields
import TensorSchema.Snapshot.Config

namespace TensorSchema

open Json

namespace Conventions

lemma ofJson?_toJson (c : Conventions) : ofJson? c.toJson = some c := by
  rw [ofJson?, toJson, defaultedFields?_record (by decide) rfl]
  simp [fieldOr, string?_text]

lemma wellFormed_toJson (c : Conventions) : WellFormed c.toJson := by
  apply wellFormed_zip
  simp [wellFormed_text]

end Conventions

namespace Config

lemma ofJson?_toJson (c : Config) : ofJson? c.toJson = some c := by
  rw [ofJson?, toJson, defaultedFields?_record (by decide) rfl]
  simp [fieldOr, Conventions.ofJson?_toJson, map?_ofMap c.values string?_text]

lemma wellFormed_toJson (c : Config) : WellFormed c.toJson := by
  apply wellFormed_zip
  simp [Conventions.wellFormed_toJson, wellFormed_ofMap c.values wellFormed_text]

lemma load?_save (c : Config) : load? c.save = some c := by
  rw [load?, save, parse?_render c.wellFormed_toJson, Option.bind_some, ofJson?_toJson]

lemma get?_set (c : Config) (key other value : String) :
    (c.set key value).get? other = if other = key then some value else c.get? other :=
  c.values.find?_insert_eq key other value

def configured (c : Config) (settings : List (String × String)) : Config :=
  settings.foldl (fun c setting => c.set setting.1 setting.2) c

lemma get?_configured (c : Config) (settings : List (String × String)) (key : String) :
    (c.configured settings).get? key = (settings.reverse.lookup key).or (c.get? key) := by
  induction settings generalizing c with
  | nil => rfl
  | cons setting rest ih =>
    calc (c.configured (setting :: rest)).get? key
        = (rest.reverse.lookup key).or ((c.set setting.1 setting.2).get? key) :=
          ih (c.set setting.1 setting.2)
      _ = (rest.reverse.lookup key).or (([setting].lookup key).or (c.get? key)) := by
          rw [get?_set, NameMap.lookup_cons_eq]
          split <;> rfl
      _ = ((setting :: rest).reverse.lookup key).or (c.get? key) := by
          rw [List.reverse_cons, List.lookup_append, Option.or_assoc]

/-- Every configuration is loaded from its snapshot as it was saved. So what is loaded after any settings
answers a key with the last value that was set for it, or else as before the settings. -/
theorem save_restores (c : Config) :
    load? c.save = some c ∧
    ∀ settings key, ((load? (c.configured settings).save).bind fun restored => restored.get? key) =
      (settings.reverse.lookup key).or (c.get? key) := by
  refine ⟨c.load?_save, ?_⟩
  intro settings key
  rw [load?_save, Option.bind_some, get?_configured]

end Config

end TensorSchema
