import DirectoryScript.Proofs.ReplayedJournal

namespace DirectoryScript

namespace Command

/-- The same verb, source and destination, whatever lines the commands were read from. -/
def Repeats (d c : Command) : Prop :=
  d.verb = c.verb ∧ d.source = c.source ∧ d.destination = c.destination

variable {c d : Command}

/-- Without a source the verb does not fill its column, so the column of the source begins too
early and runs into the destination. -/
theorem written_unaligned (hs : c.source = []) (hd : c.destination ≠ []) :
    c.written = pad verbWidth c.verb.word ++
      (List.replicate c.verb.word.length ' ' ++ c.destination) := by
  have hlength := c.verb.length_word_lt.le
  have hgap : pad sourceWidth [] = List.replicate (verbWidth - c.verb.word.length) ' ' ++
      List.replicate c.verb.word.length ' ' := by
    rw [List.replicate_append_replicate, Nat.sub_add_cancel hlength]
    rfl
  rw [written, if_pos hs, if_neg hd, hs, hgap, pad, List.rightpad]
  simp only [List.append_assoc]

theorem ofLine_unaligned (hs : c.source = []) (hd : c.destination ≠ [])
    (ht : Trimmed c.destination) : (Columns.ofLine c.written).verb = c.verb.word ∧
      (Columns.ofLine c.written).source ≠ [] := by
  have hlength := c.verb.length_pad_word
  rw [written_unaligned hs hd]
  constructor
  · rw [Columns.ofLine, List.take_left' hlength]
    exact trim_pad (trimmed_of_name c.verb.isName_word) verbWidth
  · have hfits : c.verb.word.length < sourceWidth := c.verb.length_word_lt
    obtain ⟨first, rest, he⟩ := List.exists_cons_of_ne_nil hd
    have hfirst : isBlank first = false := ht.head first (by rw [he]; rfl)
    have hplace : ((List.replicate c.verb.word.length ' ' ++ c.destination).take sourceWidth)[
        c.verb.word.length]? = some first := by
      rw [List.getElem?_take_of_lt hfits, he, List.getElem?_append_right (by simp)]
      simp
    rw [Columns.ofLine, List.drop_left' hlength]
    exact trim_ne_nil (List.mem_of_getElem? hplace) hfirst

theorem source_ne_nil_of_unaligned {read : Command} (hs : c.source = []) (hd : c.destination ≠ [])
    (ht : Trimmed c.destination) (h : parse c.written = .ok read) : read.source ≠ [] := by
  obtain ⟨_, hcolumns, _⟩ := parse_eq_ok_iff.mp h
  have hne := (ofLine_unaligned hs hd ht).2
  rwa [hcolumns] at hne

/-- After the column of the verb a command is written on with its source, or with a space when it
has none but has a destination. -/
theorem written_ne_of_unaligned (hc : c.source ≠ []) (ht : Trimmed c.source) (hs : d.source = [])
    (hd : d.destination ≠ []) : c.written ≠ d.written := by
  intro h
  rw [written_unaligned hs hd, written, if_neg hc, List.append_assoc] at h
  have htails := List.append_inj_right h (by rw [Verb.length_pad_word, Verb.length_pad_word])
  have hhead : ((if c.destination = [] then c.source else pad sourceWidth c.source) ++
      c.destination).head? = c.source.head? := by
    split
    · rw [List.head?_append_of_ne_nil _ hc]
    · rw [pad, List.rightpad, List.append_assoc, List.head?_append_of_ne_nil _ hc]
  have hspace : (List.replicate d.verb.word.length ' ' ++ d.destination).head? = some ' ' := by
    cases d.verb <;> rfl
  have hblank := ht.head ' ' (by rw [← hhead, htails, hspace])
  exact absurd hblank (by decide)

theorem read_aligned {line : Text} (h : parse line = .ok c)
    (ha : c.source ≠ [] ∨ c.destination = []) :
    parse c.written = .ok { c with line := c.written } := by
  obtain ⟨hs, _, hd⟩ := fields_of_parse h
  have hread := parse_written_of_parse h ha
  rwa [trim_of_trimmed (written_trimmed hs hd)] at hread

theorem aligned_of_written_eq {line line' : Text} (hc : parse line = .ok c)
    (hd : parse line' = .ok d) (h : d.written = c.written)
    (ha : c.source ≠ [] ∨ c.destination = []) : d.source ≠ [] ∨ d.destination = [] := by
  obtain ⟨hcs, _, _⟩ := fields_of_parse hc
  obtain ⟨_, _, hdd⟩ := fields_of_parse hd
  by_cases hsource : d.source = []
  · by_cases hdestination : d.destination = []
    · exact Or.inr hdestination
    · -- The text is read as `c`. Written for `d` it is read with a source, so `c` has one and is
      -- written otherwise.
      have hread := read_aligned hc ha
      rw [← h] at hread
      have hne := source_ne_nil_of_unaligned hsource hdestination hdd hread
      exact absurd h.symm (written_ne_of_unaligned hne hcs hsource hdestination)
  · exact Or.inl hsource

/-- The written form of a command leaves no doubt which command it is, even where it cannot be read
back. -/
theorem repeats_of_written_eq {line line' : Text} (hc : parse line = .ok c)
    (hd : parse line' = .ok d) (h : d.written = c.written) : d.Repeats c := by
  by_cases ha : c.source ≠ [] ∨ c.destination = []
  · have hcread := read_aligned hc ha
    have hdread := read_aligned hd (aligned_of_written_eq hc hd h ha)
    rw [h, hcread] at hdread
    obtain ⟨hverb, hsource, hdestination, _⟩ := Command.mk.inj (Except.ok.inj hdread)
    exact ⟨hverb.symm, hsource.symm, hdestination.symm⟩
  · have ha' : ¬ (d.source ≠ [] ∨ d.destination = []) := fun haligned =>
      ha (aligned_of_written_eq hd hc h.symm haligned)
    obtain ⟨hcs, hcd⟩ := not_or.mp ha
    obtain ⟨hds, hdd⟩ := not_or.mp ha'
    rw [not_not] at hcs hds
    have hcverb := (ofLine_unaligned hcs hcd (fields_of_parse hc).2.2).1
    have hdverb := (ofLine_unaligned hds hdd (fields_of_parse hd).2.2).1
    have hverb : d.verb = c.verb := Verb.word_injective (by rw [← hdverb, h, hcverb])
    rw [written_unaligned hcs hcd, written_unaligned hds hdd, hverb] at h
    exact ⟨hverb, by rw [hds, hcs], List.append_cancel_left (List.append_cancel_left h)⟩

/-- What is echoed is read back as the command that it was, unless this has a destination but no
source: then the echo is rejected or read with a source. No other command has the same echo. -/
theorem echo_read_back {line : Text} (h : parse line = .ok c) :
    ∃ text, c.echo = "Command: ".toList ++ text ∧ trim text = text ∧
      ((∃ read, parse text = .ok read ∧ read.Repeats c) ↔ c.source ≠ [] ∨ c.destination = []) ∧
      (c.source = [] → c.destination ≠ [] → (c.verb = .dir ∨ c.verb = .up ∨ c.verb = .tree) ∧
        ((∃ why, parse text = .error why) ∨ ∃ read, parse text = .ok read ∧ read.source ≠ [])) ∧
      ∀ line' d, parse line' = .ok d → d.echo = c.echo → d.Repeats c := by
  obtain ⟨hs, _, hd⟩ := fields_of_parse h
  refine ⟨c.written, rfl, trim_of_trimmed (written_trimmed hs hd), ⟨?_, ?_⟩, ?_, ?_⟩
  · rintro ⟨read, hread, _, hsource, _⟩
    by_cases hnil : c.source = []
    · by_cases hdestination : c.destination = []
      · exact Or.inr hdestination
      · have hne := source_ne_nil_of_unaligned hnil hdestination hd hread
        exact absurd (hsource.trans hnil) hne
    · exact Or.inl hnil
  · intro ha
    exact ⟨_, read_aligned h ha, rfl, rfl, rfl⟩
  · intro hsource hdestination
    constructor
    · cases hv : c.verb with
      | dir | up | tree => simp
      | mkdir | cd | mv =>
        have hname := parse_source h (by rw [hv]; rfl)
        exact absurd hsource (isName_ne_nil hname)
    · cases hread : parse c.written with
      | error why => exact Or.inl ⟨why, rfl⟩
      | ok read =>
        exact Or.inr ⟨read, rfl, source_ne_nil_of_unaligned hsource hdestination hd hread⟩
  · intro line' d hd' hecho
    exact repeats_of_written_eq h hd' (List.append_cancel_left hecho)

theorem unaligned_tree_read_otherwise :
    let c : Command := ⟨.tree, [], "..".toList, "tree            ..".toList⟩
    parse "tree            ..".toList = .ok c ∧
      ∃ text, c.echo = "Command: ".toList ++ text ∧ trim text = text ∧
        ¬ ∃ read, parse text = .ok read ∧ read.Repeats c := by
  intro c
  have h : parse "tree            ..".toList = .ok c := rfl
  obtain ⟨text, hecho, htrim, hiff, _⟩ := echo_read_back h
  refine ⟨h, text, hecho, htrim, fun hread => ?_⟩
  exact absurd (hiff.mp hread) (by decide)

end Command

end DirectoryScript
