import PicoRadio.NetworkTables.TextDispatch

/-!
# Unknown content in text frames

A frame may contain messages of other methods, and options and properties with other keys. The text
loop does not parse what it does not know: it searches on for a quotation mark or a closing brace.
`WrittenMessage.Tame` says which unknown content it passes over as it should. A closing brace in the
parameters of an unknown method is taken for the end of the parameters; the strings in the value of
an unknown key are taken for keys, and if the value is the last of its object and no string, so is
the next string after the object (`unknown_option_loses_subuid`).
-/

open Json Json.Unpacker

namespace NetworkTables

variable {ws : List WrittenMessage} {ms : List ClientMessage}

/-- A text is read like the one without the unknown messages and members, and with the unknown
messages among the others. -/
theorem exists_readAs (h : List.Forall₂ Writes (eraseAll ws) ms) :
    ∃ ms', List.Forall₂ ReadAs ws ms' ∧ ms'.filter (· ≠ .unknown) = ms := by
  induction ws generalizing ms with
  | nil =>
    obtain ⟨⟩ := h
    exact ⟨[], .nil, rfl⟩
  | cons w ws ih =>
    cases hw : w.isOther with
    | true =>
      have herase : eraseAll (w :: ws) = eraseAll ws := by simp [eraseAll, hw]
      obtain ⟨ms', hms', hfilter⟩ := ih (herase ▸ h)
      exact ⟨.unknown :: ms', .cons (by rw [ReadAs, hw]; rfl) hms', hfilter⟩
    | false =>
      have herase : eraseAll (w :: ws) = w.erase :: eraseAll ws := by simp [eraseAll, hw]
      rw [herase] at h
      obtain - | ⟨hm, hms⟩ := h
      obtain ⟨ms', hms', rfl⟩ := ih hms
      exact ⟨_, .cons (by rw [ReadAs, hw]; exact hm) hms',
        List.filter_cons_of_pos (decide_eq_true hm.ne_unknown)⟩

/-- Known messages of a frame are dispatched as if the unknown content were not there, if it is
tame. -/
theorem unknown_ignored (h : List.Forall₂ Writes (eraseAll ws) ms)
    (hforeign : ∀ w ∈ ws, w.Foreign) (htame : ∀ w ∈ ws, w.Tame) {payload payload' : Bytes}
    (htext : (frameValue (eraseAll ws)).IsText payload) (htext' : (frameValue ws).IsText payload')
    (init : Locals) : dispatched init payload' = dispatched init payload := by
  obtain ⟨hbare, hunknown⟩ := forall_bare h
  have hread : List.Forall₂ ReadAs (eraseAll ws) ms := h.imp fun _ _ h ↦ h.readAs
  rw [dispatched_of_bare hread hbare hunknown htext.spells]
  obtain ⟨ms', hms', rfl⟩ := exists_readAs h
  rw [dispatched_of_readAs hms' hforeign htame htext'.spells]
  intro t ht text heq
  have := htext'.valid t ht
  rwa [heq] at this

/-- A number for an unknown option is passed over before another option. -/
theorem unknown_ignored_sample :
    dispatched ⟨0, 0, .bool, 0⟩ ((frameValue [.subscribe [.topics [ascii "/x"], .subuid 5,
        .options [.other (ascii "foo") (.number (ascii "1")), .all true]]]).tokens.flatMap
          Token.text) =
      dispatched ⟨0, 0, .bool, 0⟩ ((frameValue [.subscribe [.topics [ascii "/x"], .subuid 5,
        .options [.all true]]]).tokens.flatMap Token.text) := by
  have hother : ∀ e ∈ [OptionMember.other (ascii "foo") (.number (ascii "1")), .all true],
      e.isOther = true → e = .other (ascii "foo") (.number (ascii "1")) := by
    rintro e (_ | ⟨_, _ | ⟨_, ⟨⟩⟩⟩) he
    · rfl
    · exact nomatch he
  refine @unknown_ignored
    [.subscribe [.topics [ascii "/x"], .subuid 5,
      .options [.other (ascii "foo") (.number (ascii "1")), .all true]]]
    [.subscribe [ascii "/x"] 5 { SubscriptionOptions.DEFAULT with all := true }]
    (.cons (@Writes.subscribe [ascii "/x"] 5 { all := some true } [.all true] _ (by decide)
      (.refl _) (.refl _)) .nil)
    ?_ ?_ _ _ (.of_isSimple (by decide +kernel)) (.of_isSimple (by decide +kernel)) _
  · refine List.forall_mem_singleton.mpr fun es hes key value hkey ↦ ?_
    obtain rfl : es = _ := by simpa using hes
    obtain ⟨rfl, -⟩ := OptionMember.other.inj (hother _ hkey rfl)
    decide
  · refine List.forall_mem_singleton.mpr fun es hes ↦ ?_
    obtain rfl : es = _ := by simpa using hes
    refine ⟨fun e he ho ↦ ?_, fun e he ho ↦ ?_⟩
    · rw [hother e he ho]
      refine ⟨by decide, fun s hs ↦ ?_, nofun⟩
      exact nomatch List.eq_of_mem_singleton hs
    · obtain rfl := Option.some.inj he
      exact nomatch ho

/-- A number for an unknown option, as the last one: the next key of the parameters is taken for an
option, and the subscription gets the uid that the variable happens to hold. -/
theorem unknown_option_loses_subuid :
    WrittenMessage.Foreign (.subscribe [.topics [ascii "/x"],
      .options [.other (ascii "foo") (.number (ascii "1"))], .subuid 5]) ∧
    (frameValue [.subscribe [.topics [ascii "/x"],
      .options [.other (ascii "foo") (.number (ascii "1"))], .subuid 5]]).IsText
        ((frameValue [.subscribe [.topics [ascii "/x"],
          .options [.other (ascii "foo") (.number (ascii "1"))], .subuid 5]]).tokens.flatMap
            Token.text) ∧
    dispatched ⟨0, 0, .bool, 0⟩ ((frameValue [.subscribe [.topics [ascii "/x"],
        .options [.other (ascii "foo") (.number (ascii "1"))], .subuid 5]]).tokens.flatMap
          Token.text) = [.subscribe [ascii "/x"] 0 .DEFAULT] ∧
    dispatched ⟨0, 0, .bool, 0⟩ ((frameValue (eraseAll [.subscribe [.topics [ascii "/x"],
        .options [.other (ascii "foo") (.number (ascii "1"))], .subuid 5]])).tokens.flatMap
          Token.text) = [.subscribe [ascii "/x"] 5 .DEFAULT] := by
  refine ⟨fun es hes key value hkey ↦ ?_, .of_isSimple (by decide +kernel), by decide +kernel,
    by decide +kernel⟩
  obtain rfl : es = _ := by simpa using hes
  obtain ⟨rfl, -⟩ := OptionMember.other.inj (List.eq_of_mem_singleton hkey)
  decide

end NetworkTables
