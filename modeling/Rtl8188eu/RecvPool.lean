import Rtl8188eu.Adapter
import Rtl8188eu.LinkedLists

/-!
# The pool of receive frames

The functions of `core/rtw_recv.c` that take receive frames from lists and return them to
the free queue, and the pointer helpers of `include/rtw_recv.h` on one frame.

`free_recvframe_cnt` is kept next to the free queue : taking from and returning to the
free queue change it by one, linking a frame anywhere else does not touch it.
-/

namespace Rtl8188eu

open LinkedLists

/-! ## Pointer helpers -/

namespace RecvFrame

/-- `recvframe_pull` : move `rx_data` forward by `sz`. The result is null past `rx_tail`,
and the frame is then as before. -/
def recvframePull (f : RecvFrame) (sz : ℤ) : Option RecvFrame :=
  if f.rxData + sz > f.rxTail then none
  else some { f with rxData := f.rxData + sz, len := u32 (f.len - sz) }

/-- `recvframe_put` : move `rx_tail` forward by `sz`. The result is null past `rx_end`. -/
def recvframePut (f : RecvFrame) (sz : ℤ) : Option RecvFrame :=
  if f.rxTail + sz > f.rxEnd then none
  else some { f with rxTail := f.rxTail + sz, len := u32 (f.len + sz) }

/-- `recvframe_pull_tail` : move `rx_tail` back by `sz`. The result is null before
`rx_data`. -/
def recvframePullTail (f : RecvFrame) (sz : ℤ) : Option RecvFrame :=
  if f.rxTail - sz < f.rxData then none
  else some { f with rxTail := f.rxTail - sz, len := u32 (f.len - sz) }

end RecvFrame

/-! ## Lists of frames -/

namespace Adapter

variable {ι : Type} [DecidableEq ι]

/-- `list_del_init` on the link of a frame. -/
def listDelInit (s : Adapter ι) (f : ι) : Adapter ι := { s with queue := unlink s.queue f }

/-- `list_add_tail` of a frame. -/
def listAddTail (s : Adapter ι) (f : ι) (q : Queue) : Adapter ι :=
  { s with queue := addTail s.queue q f }

/-- `rtw_alloc_recvframe` : the first frame of a list. -/
def rtwAllocRecvframe (s : Adapter ι) (q : Queue) : Option (ι × Adapter ι) :=
  match s.queue q with
  | [] => none
  | f :: _ =>
    let s := s.listDelInit f
    if q = .freeRecv then
      some (f, { s with
        freeRecvframeCnt := u32 (s.freeRecvframeCnt - 1)
        poolLog := s.poolLog ++ [.alloc f] })
    else some (f, s)

/-- `rtw_free_recvframe` to the free queue. -/
def rtwFreeRecvframe (s : Adapter ι) (f : ι) : Adapter ι :=
  let s := s.updateFrame f fun fr => { fr with pkt := false }
  let s := s.listDelInit f
  let s := s.updateFrame f fun fr => { fr with len := 0 }
  let s := s.listAddTail f .freeRecv
  { s with
    freeRecvframeCnt := u32 (s.freeRecvframeCnt + 1)
    poolLog := s.poolLog ++ [.free f] }

/-- `rtw_enqueue_recvframe`. -/
def rtwEnqueueRecvframe (s : Adapter ι) (f : ι) (q : Queue) : Adapter ι :=
  let s := (s.listDelInit f).listAddTail f q
  if q = .freeRecv then
    { s with
      freeRecvframeCnt := u32 (s.freeRecvframeCnt + 1)
      poolLog := s.poolLog ++ [.free f] }
  else s

/-- Return the frames of a list to the free queue one by one. -/
def freeFrames (s : Adapter ι) (fs : List ι) : Adapter ι := fs.foldl rtwFreeRecvframe s

theorem freeFrames_cons (s : Adapter ι) (f : ι) (fs : List ι) :
    s.freeFrames (f :: fs) = (s.rtwFreeRecvframe f).freeFrames fs := by
  simp only [freeFrames, List.foldl_cons]

/-- `rtw_free_recvframe_queue`. The loop reads the next link before it frees a frame, so
it visits the frames the list has at the start. -/
def rtwFreeRecvframeQueue (s : Adapter ι) (q : Queue) : Adapter ι := s.freeFrames (s.queue q)

/-- `n` rounds of the loop of `rtw_free_uc_swdec_pending_queue`. -/
def ucSwdecFreeLoop : ℕ → Adapter ι → Adapter ι
  | 0, s => s
  | n + 1, s =>
    match s.rtwAllocRecvframe .ucSwdecPending with
    | none => s
    | some (f, s) => ucSwdecFreeLoop n (s.rtwFreeRecvframe f)

/-- `rtw_free_uc_swdec_pending_queue`. Every round takes a frame off the list, so it has
as many rounds as the list has frames. -/
def rtwFreeUcSwdecPendingQueue (s : Adapter ι) : Adapter ι :=
  ucSwdecFreeLoop (s.queue .ucSwdecPending).length s

end Adapter

end Rtl8188eu
