import Letterhead.Source
import Letterhead.Proofs.Text.LineEnd
import Letterhead.Proofs.Text.Utf8

/-!
A file gives back its bytes.

Reading a file keeps every byte: broken sequences are carried as strays, a carriage return stays in
its line, and whether the last line is ended is told apart. Lines, in turn, are read again as they
were joined, but for an empty last line that is not ended: it leaves no trace but the line feed
before it, which is then read as an end.
-/

namespace Letterhead

open Utf8

namespace Lines

open Text

lemma isEnded_join {ls : List Text} (hne : ls ≠ []) (h : ∀ l ∈ ls, CodePoint.ofChar '\n' ∉ l)
    (ended : Bool) :
    isEnded (join ls ended) = true ↔ ended = true ∨ 2 ≤ ls.length ∧ ls.getLast? = some [] := by
  obtain ⟨init, l, rfl⟩ : ∃ init l, ls = init ++ [l] :=
    ⟨ls.dropLast, ls.getLast hne, (List.dropLast_concat_getLast hne).symm⟩
  have hl : CodePoint.ofChar '\n' ∉ l := h l (by simp)
  cases ended with
  | true => simp [isEnded, join, ofChars]
  | false =>
    -- a line that is not empty does not end in a line feed
    have hlast : ∀ t : Text, isEnded (t ++ l) = true ↔ l = [] ∧ isEnded t = true := by
      intro t
      rcases List.eq_nil_or_concat l with rfl | ⟨u, c, rfl⟩
      · simp
      · have hc : c ≠ CodePoint.ofChar '\n' := by
          rintro rfl
          simp at hl
        simp [isEnded, hc]
    have hone : isEnded l = true ↔ False := by simpa [isEnded] using hlast []
    rcases init with _ | ⟨i, is⟩
    · simp [join, hone]
    · rw [join, if_neg (by simp), joinWith_concat _ (by simp), List.append_cons, hlast,
        List.getLast?_concat]
      simp [isEnded]

/-- **Lines are read as they were joined**, but for an empty last one that is not ended. -/
lemma ofText_join_iff {ls : List Text} (hne : ls ≠ []) (h : ∀ l ∈ ls, CodePoint.ofChar '\n' ∉ l)
    (ended : Bool) :
    (ofText (join ls ended)).all = ls ∧ (ofText (join ls ended)).ended = ended ↔
      ¬ (ended = false ∧ 2 ≤ ls.length ∧ ls.getLast? = some []) := by
  have hended : (ofText (join ls ended)).ended = isEnded (join ls ended) := rfl
  have hiff := isEnded_join hne h ended
  constructor
  · rintro ⟨-, he⟩ ⟨rfl, hempty⟩
    rw [hended, hiff.mpr (Or.inr hempty)] at he
    cases he
  · intro hno
    have he : isEnded (join ls ended) = ended := by
      cases ended with
      | true => exact hiff.mpr (Or.inl rfl)
      | false =>
        rw [Bool.eq_false_iff]
        exact fun hyes => hno ⟨rfl, (hiff.mp hyes).resolve_left (by simp)⟩
    exact ⟨all_ofText_join_of_isEnded hne h he, hended.trans he⟩

end Lines

namespace Settings

/-- A file is read with its path, its bytes and their lines. It counts under its path, or under a
name made of the extension that its content told. -/
lemma source?_cases {s : Settings} {path : String} {bs : Bytes} {src : Source}
    (h : s.source? path bs = some src) :
    ∃ ext name smart, src = ⟨path, bs, Lines.ofText (decode bs), ext, name, smart⟩ ∧
      (name = path ∨ name = nameOr ext none) := by
  unfold source? at h
  dsimp only at h
  split at h
  · split at h
    · split at h
      · cases h
      · exact ⟨_, _, _, (Option.some.inj h).symm, .inr rfl⟩
    · cases h
  · exact ⟨_, _, _, (Option.some.inj h).symm, .inl rfl⟩

lemma lines_of_source? {s : Settings} {path : String} {bs : Bytes} {src : Source}
    (h : s.source? path bs = some src) : src.lines = Lines.ofText (decode bs) := by
  obtain ⟨ext, name, smart, rfl, -⟩ := source?_cases h
  rfl

/-- **A file gives back its bytes**, whatever they are: its lines, none of which has a line feed,
are written as the bytes that were read. And lines are read again as they were joined, exactly if
there is no empty last one that is not ended behind other lines. -/
theorem source_round_trip :
    (∀ (s : Settings) (path : String) (bs : Bytes) (src : Source),
      s.source? path bs = some src →
      src.render src.lines.all = some bs ∧ ∀ l ∈ src.lines.all, CodePoint.ofChar '\n' ∉ l) ∧
    (∀ (ls : List Text) (ended : Bool), ls ≠ [] → (∀ l ∈ ls, CodePoint.ofChar '\n' ∉ l) →
      ((Lines.ofText (Lines.join ls ended)).all = ls ∧
          (Lines.ofText (Lines.join ls ended)).ended = ended ↔
        ¬ (ended = false ∧ 2 ≤ ls.length ∧ ls.getLast? = some []))) := by
  refine ⟨fun s path bs src h => ?_, fun ls ended hne hls => Lines.ofText_join_iff hne hls ended⟩
  have hlines := lines_of_source? h
  refine ⟨?_, fun l hl => Lines.not_mem_of_mem_ofText (hlines ▸ hl)⟩
  have hjoin : Lines.join src.lines.all src.lines.ended = decode bs := by
    rw [hlines]
    exact Lines.toText_ofText (decode bs)
  rw [Source.render, hjoin, encode_decode]

/-- A file with a sequence that is cut off, a zero, a surrogate, line ends of both kinds, and a
sequence above the last code point. -/
def broken : Bytes := [0xC3, 0x0A, 0x00, 0xED, 0xA0, 0x80, 0x0D, 0x0A, 0xF4, 0x90, 0x0A, 0x0A]

def brokenLines : List Text :=
  [[⟨0xDCC3⟩], [⟨0⟩, ⟨0xDCED⟩, ⟨0xDCA0⟩, ⟨0xDC80⟩, '\r'], [⟨0xDCF4⟩, ⟨0xDC90⟩], []]

def brokenSource : Source := ⟨"a.go", broken, ⟨brokenLines, .lf, true⟩, ".go", "a.go", false⟩

theorem broken_round_trip :
    (Settings.default 2025).source? "a.go" broken = some brokenSource ∧
    brokenSource.render brokenLines = some broken ∧
    (Lines.ofText (Lines.join brokenLines true)).all = brokenLines ∧
    ¬ ((Lines.ofText (Lines.join brokenLines false)).all = brokenLines ∧
      (Lines.ofText (Lines.join brokenLines false)).ended = false) := by
  have hsrc : (Settings.default 2025).source? "a.go" broken = some brokenSource := rfl
  obtain ⟨hread, hjoined⟩ := source_round_trip
  exact ⟨hsrc, (hread _ _ _ _ hsrc).1, ((hjoined brokenLines true (by decide) (by decide)).mpr
    (by decide)).1, fun h => (hjoined brokenLines false (by decide) (by decide)).mp h (by decide)⟩

end Settings

end Letterhead
