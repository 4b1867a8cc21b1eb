import AccountRoster.Disk.Access

/-!
# What an access leaves readable

What a path holds depends on the nodes of a disk and on where paths start. An
access that meets no outage therefore reads what was there before, and leaves it
there to be read again.
-/

namespace AccountRoster.Disk

variable {d e : Disk}

theorem walk_congr (hnodes : e.nodes = d.nodes) (folder names : List String) :
    e.walk folder names = d.walk folder names := by
  induction names generalizing folder with
  | nil => rfl
  | cons name more ih =>
      have henter : e.enter folder name = d.enter folder name := by
        rw [enter, enter, hnodes]
      rw [walk, walk, henter]
      cases d.enter folder name with
      | error fault => rfl
      | ok next => exact ih next

/-- Disks with the same nodes hold the same texts. -/
theorem contents_congr (hnodes : e.nodes = d.nodes) (hhome : e.home = d.home) (path : String) :
    e.contents path = d.contents path := by
  have hstart : e.start path = d.start path := by
    rw [start, start, hhome]
  have hsite : e.site path = d.site path := by
    rw [site, site, hstart]
    cases d.start path with
    | error fault => rfl
    | ok folder => simp only [walk_congr hnodes]
  rw [contents, contents, look, look, hsite, hnodes]

@[simp] theorem contents_access (d : Disk) (path : String) :
    d.access.2.contents path = d.contents path :=
  contents_congr (e := d.access.2) (d := d) rfl rfl path

/-- A read that meets no outage gives what the path holds. -/
theorem read_of_calm (h : d.access.1 = false) (path : String) :
    d.read path = (d.contents path, d.access.2) := by
  have hread : d.read path =
      if d.access.1 then (.error .outage, d.access.2) else (d.access.2.contents path, d.access.2) :=
    rfl
  rw [hread, h, if_neg Bool.false_ne_true, contents_access]

end AccountRoster.Disk
