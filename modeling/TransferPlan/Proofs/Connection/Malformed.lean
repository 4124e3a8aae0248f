import TransferPlan.Connection.Basic
import TransferPlan.Proofs.Lists

/-!
# Malformed URLs

A URL cannot be used because it cannot be cut into parts, or because its port is no number up to
65535, or has too many digits to be read as one, although the rest of it names a database
(`Descriptor.resolve_eq_badUrl_iff`).
-/

namespace TransferPlan

namespace Url

variable {u : Url} {e : UrlError}

/-- What is wrong with a port.  One without digits is no port at all. -/
inductive BadPort (u : Url) : UrlError → Prop
  | notNumeric (digits : u.hostAndPort.2.all Char.isDigit = false) :
    BadPort u (.portNotNumeric (String.ofList u.hostAndPort.2))
  | tooLong (digits : u.hostAndPort.2.all Char.isDigit = true)
    (long : Text.maxDigits < u.hostAndPort.2.length) :
    BadPort u (.portTooLong u.hostAndPort.2.length)
  | outOfRange (digits : u.hostAndPort.2.all Char.isDigit = true)
    (short : u.hostAndPort.2.length ≤ Text.maxDigits) (number : 65535 < u.portNumber) :
    BadPort u .portOutOfRange

theorem port?_eq : u.port? = if u.hostAndPort.2.isEmpty then .ok none
    else if u.hostAndPort.2.all Char.isDigit then
      if Text.maxDigits < u.hostAndPort.2.length then .error (.portTooLong u.hostAndPort.2.length)
      else if 65535 < u.portNumber then .error .portOutOfRange
      else .ok (some u.portNumber)
    else .error (.portNotNumeric (String.ofList u.hostAndPort.2)) :=
  rfl

theorem port?_eq_error_iff : u.port? = .error e ↔ u.BadPort e := by
  rw [port?_eq]
  constructor
  · intro h
    split_ifs at h with hempty hdigits hlong hnumber
    · obtain rfl := Except.error.inj h
      exact .tooLong hdigits hlong
    · obtain rfl := Except.error.inj h
      exact .outOfRange hdigits (Nat.not_lt.1 hlong) hnumber
    · obtain rfl := Except.error.inj h
      exact .notNumeric (Bool.eq_false_iff.2 hdigits)
  · intro h
    have hempty : ¬ u.hostAndPort.2.isEmpty = true := fun hempty => by
      rw [List.isEmpty_iff] at hempty
      cases h with
      | notNumeric digits => simp [hempty] at digits
      | tooLong _ long => simp [hempty] at long
      | outOfRange _ _ number => simp [portNumber, hempty] at number
    rw [if_neg hempty]
    cases h with
    | notNumeric digits => rw [if_neg (Bool.eq_false_iff.1 digits)]
    | tooLong digits long => rw [if_pos digits, if_pos long]
    | outOfRange digits short number =>
        rw [if_pos digits, if_neg (Nat.not_lt.2 short), if_pos number]

end Url

namespace Descriptor

variable {c : Descriptor} {d : Dialect} {u : Url} {url : String} {e : UrlError}

/-- The URL is written for the dialect and names a host and a database. -/
structure Accepts (d : Dialect) (u : Url) : Prop where
  dialect : urlDialect? u = some d
  host : u.host? ≠ none
  database : urlDatabase u ≠ ""

theorem ofUrl_eq_badUrl_iff : ofUrl d u = .error (.badUrl e) ↔ Accepts d u ∧ u.BadPort e := by
  unfold ofUrl
  constructor
  · intro h
    by_cases hscheme : u.scheme = ""
    · rw [if_pos hscheme] at h
      exact nomatch h
    by_cases hdialect : urlDialect? u = some d
    · rw [if_neg hscheme, if_neg (not_not.2 hdialect)] at h
      split at h
      · exact nomatch h
      · next host hhost =>
        split_ifs at h with hdatabase
        · exact nomatch h
        · rcases bind_eq_error_iff.1 h with hport | ⟨port, -, h⟩
          · obtain ⟨e', hbad, he⟩ := mapError_eq_error_iff.1 hport
            obtain rfl := ConnectionError.badUrl.inj he
            exact ⟨⟨hdialect, by simp [hhost], hdatabase⟩, Url.port?_eq_error_iff.1 hbad⟩
          · exact nomatch h
    · rw [if_neg hscheme, if_pos hdialect] at h
      exact nomatch h
  · rintro ⟨⟨hdialect, hhost, hdatabase⟩, hport⟩
    have hscheme : u.scheme ≠ "" := fun h => by
      rw [urlDialect?, h] at hdialect
      exact nomatch hdialect
    obtain ⟨host, hhost⟩ := Option.ne_none_iff_exists'.1 hhost
    rw [if_neg hscheme, if_neg (not_not.2 hdialect), hhost]
    dsimp only
    rw [if_neg hdatabase, Url.port?_eq_error_iff.2 hport]
    rfl

/-- A URL cannot be cut, or it is accepted but for its port. -/
def BadUrl (d : Dialect) (url : String) (e : UrlError) : Prop :=
  Url.parse (Text.trim url) = .error e ∨
    ∃ u, Url.parse (Text.trim url) = .ok u ∧ Accepts d u ∧ u.BadPort e

theorem resolveUrl_eq_badUrl_iff : resolveUrl d url = .error (.badUrl e) ↔ BadUrl d url e := by
  unfold resolveUrl BadUrl
  rw [bind_eq_error_iff, mapError_eq_error_iff]
  refine or_congr ?_ (exists_congr fun u => ?_)
  · constructor
    · rintro ⟨e', he', h⟩
      exact ConnectionError.badUrl.inj h ▸ he'
    · exact fun h => ⟨e, h, rfl⟩
  · rw [mapError_eq_ok_iff, ofUrl_eq_badUrl_iff]

/-- Only a description by a URL is malformed. -/
theorem resolve_eq_badUrl_iff : c.resolve = .error (.badUrl e) ↔
    ∃ d url, Dialect.ofName? (c.driver.getD "") = some d ∧ given? c.url = some url ∧
      BadUrl d url e := by
  unfold resolve
  cases Dialect.ofName? (c.driver.getD "") with
  | none => simp
  | some d =>
      cases hurl : given? c.url with
      | some url => simp [resolveUrl_eq_badUrl_iff]
      | none => cases given? c.host <;> cases given? c.name <;> simp

end Descriptor

end TransferPlan
