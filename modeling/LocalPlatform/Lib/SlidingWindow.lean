import Mathlib.Data.List.Basic

/-!
# Sliding windows

Times that are appended to a list, and how many of them fall in one window.

* `live window now times` are the times that a window which ends at `now` still counts, and
  `within window start times` those of the half-open interval from `start`.
* `Paced limit window times`: the times never go back, and each found fewer than `limit` live ones.
* `Paced.within_le`: then no interval has more than `limit` of them.
-/

namespace LocalPlatform.SlidingWindow

/-- The times that have not left the window at `now`. -/
def live (window now : ℕ) (times : List ℕ) : List ℕ :=
  times.filter (fun time => now < time + window)

/-- The times of the half-open interval from `start`. -/
def within (window start : ℕ) (times : List ℕ) : List ℕ :=
  times.filter (fun time => start ≤ time ∧ time < start + window)

/-- Each time is not before the earlier ones, and found fewer than `limit` live. -/
inductive Paced (limit window : ℕ) : List ℕ → Prop where
  | nil : Paced limit window []
  | snoc {times : List ℕ} {now : ℕ} (earlier : Paced limit window times)
      (latest : ∀ time ∈ times, time ≤ now) (room : (live window now times).length < limit) :
      Paced limit window (times ++ [now])

variable {limit window : ℕ} {times : List ℕ}

theorem live_append (now : ℕ) (times others : List ℕ) :
    live window now (times ++ others) = live window now times ++ live window now others :=
  List.filter_append times others

theorem within_length_le_live {now start : ℕ} (hend : now < start + window) (times : List ℕ) :
    (within window start times).length ≤ (live window now times).length := by
  apply List.Sublist.length_le
  apply List.monotone_filter_right
  intro time htime
  have hwithin := of_decide_eq_true htime
  apply decide_eq_true
  omega

theorem Paced.within_le (h : Paced limit window times) (start : ℕ) :
    (within window start times).length ≤ limit := by
  induction h with
  | nil => exact Nat.zero_le limit
  | @snoc times now earlier latest room ih =>
    have happend : within window start (times ++ [now]) =
        within window start times ++ within window start [now] := List.filter_append times [now]
    rw [happend, List.length_append]
    by_cases hin : start ≤ now ∧ now < start + window
    · have hothers := @within_length_le_live window now start hin.2 times
      have hone : (within window start [now]).length ≤ 1 := List.length_filter_le _ [now]
      omega
    · have hnone : within window start [now] = [] := by
        simp only [within, List.filter_cons, decide_eq_true_eq, if_neg hin, List.filter_nil]
      rw [hnone]
      exact ih

end LocalPlatform.SlidingWindow
