import Cadi.Library.JsonSorting

namespace Library
set_option autoImplicit true

/-- `json.dumps` with sorted keys and compact separators. -/
def dumps (j : Json) : String := String.ofList j.sorted.asciiText

/-- What is dumped is loaded with its keys sorted. -/
theorem loadsWith_dumps {hooks : Hooks} (hk : hooks.Keeps) {j : Json} (hj : j.Writable) :
    loadsWith hooks (dumps j).toList = .ok j.sorted := by
  rw [dumps, String.toList_ofList]
  exact loadsWith_asciiText hk hj.sorted j.sorted.joined_string

theorem dumps_inj {i j : Json} (hi : i.Writable) (hj : j.Writable) (h : dumps i = dumps j) :
    i.sorted = j.sorted := by
  have hread := loadsWith_dumps finiteHooks_keeps hi
  rw [h, loadsWith_dumps finiteHooks_keeps hj] at hread
  exact (Except.ok.inj hread).symm

end Library
