import OriginDefi.CurvePools
import OriginDefi.RouteScan
import OriginDefi.RouterDecoder
import OriginDefi.Assets
import OriginDefi.Completeness
import OriginDefi.CopyBounds
import OriginDefi.ErrorBranches
import OriginDefi.ScreenReading
import OriginDefi.SessionDisplay
import OriginDefi.SwapDisplay
import OriginDefi.ScreenRoom
