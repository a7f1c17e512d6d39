/-!
# Texts in texts

`Text.Shows` says that a text stands somewhere in another one. What texts are put together from
stands in the result, and no text stands in a shorter one.
-/

namespace TypeBridge.Text

variable {text middle part : String} {texts : List String}

/-- Whether a text has another one somewhere in it. -/
def Shows (text part : String) : Prop := ∃ front back, text = front ++ part ++ back

namespace Shows

theorem refl (text : String) : Shows text text := ⟨"", "", by simp⟩

theorem trans (outer : Shows text middle) (inner : Shows middle part) : Shows text part := by
  obtain ⟨front, back, rfl⟩ := outer
  obtain ⟨front', back', rfl⟩ := inner
  exact ⟨front ++ front', back' ++ back, by simp only [String.append_assoc]⟩

theorem before (shows : Shows text part) (back : String) : Shows (text ++ back) part :=
  trans ⟨"", back, by simp⟩ shows

theorem behind (shows : Shows text part) (front : String) : Shows (front ++ text) part :=
  trans ⟨front, "", by simp⟩ shows

theorem length_le (shows : Shows text part) : part.length ≤ text.length := by
  obtain ⟨front, back, rfl⟩ := shows
  simp only [String.length_append]
  omega

end Shows

/-- Texts that are joined stand in the result. -/
theorem shows_join (member : text ∈ texts) : Shows (String.join texts) text := by
  induction texts with
  | nil => cases member
  | cons first rest ih =>
      rw [String.join_cons]
      rcases List.mem_cons.mp member with rfl | later
      · exact (Shows.refl text).before _
      · exact (ih later).behind first

/-- Texts that are joined with a separator stand in the result. -/
theorem shows_intercalate (separator : String) (member : text ∈ texts) :
    Shows (separator.intercalate texts) text := by
  induction texts with
  | nil => cases member
  | cons first rest ih =>
      by_cases last : rest = []
      · subst last
        rw [List.mem_singleton] at member
        subst member
        rw [String.intercalate_singleton]
        exact .refl text
      · rw [String.intercalate_cons_of_ne_nil last]
        rcases List.mem_cons.mp member with rfl | later
        · exact ((Shows.refl text).before separator).before _
        · exact (ih later).behind _

end TypeBridge.Text
